import ScriptNotebook.Proofs.Discovery
import ScriptNotebook.Proofs.InputsKept
import ScriptNotebook.Proofs.MadeDirectories

/-!
Plans made after a batch.  Notebooks are no scripts of another extension, so that a search finds
after a batch what it found before, and the folder of the outputs is there already.
-/
namespace ScriptNotebook

namespace FileTree

variable {tree later : FileTree} {input p : Path} {extension : Text} {recursive : Bool}
  {written : Location → Prop}

theorem Updates.isFile (h : Updates written tree later) (hf : tree.isFile input) :
    later.isFile input := by
  obtain ⟨content, hl⟩ := isFile_iff.mp hf
  obtain ⟨location, hlocate, hfind⟩ := lookup_eq_ok.mp hl
  obtain ⟨content', hfind', -⟩ := h.file location content hfind
  exact isFile_iff.mpr ⟨content', lookup_eq_ok.mpr ⟨location, h.locate_ok hlocate, hfind'⟩⟩

/-- A file that is a script has not been written. -/
def NoScript (extension : Text) (written : Location → Prop) : Prop :=
  ∀ name above, name.IsScriptName extension → ¬ written (name :: above)

theorem sought_of_later (hw : tree.WellFormed) (hf : tree.LinkFree) (hw' : later.WellFormed)
    (h : Updates written tree later) (hn : NoScript extension written)
    (hd : tree.isDirectory input) (hp : later.Sought input extension recursive p) :
    tree.Sought input extension recursive p := by
  obtain ⟨location, hlocate, -⟩ := lookup_eq_ok.mp (isDirectory_iff.mp hd)
  obtain ⟨location', hlocate', hp⟩ := hp
  obtain rfl : location = location' := Except.ok.inj ((h.locate_ok hlocate).symm.trans hlocate')
  refine ⟨location, hlocate, ?_⟩
  cases recursive with
  | true =>
    obtain ⟨above, name, hdown, rfl, hname⟩ := hp
    obtain ⟨hne, content, hfile⟩ := hw'.down_iff.mp hdown
    refine ⟨above, name, hw.down_iff.mpr ⟨hne, content, ?_⟩, rfl, hname⟩
    refine (h.file_of_after hfile).resolve_left ?_
    rw [List.reverse_append]
    exact hn name _ hname
  | false =>
    obtain ⟨name, content, hne, hhidden, rfl, hlook, hname⟩ := hp
    obtain ⟨entry, hentry⟩ := Option.ne_none_iff_exists'.mp hne
    have hi : Path.IsName name := hw'.isName_of_find? hentry
    have hlast : (input.join ⟨name⟩).components = input.components ++ [.name name] := by
      rw [Path.components_join (Path.parts_fst_name hi), Path.components_name hi]
    obtain ⟨at_, hat, hfile⟩ := lookup_eq_ok.mp hlook
    obtain rfl : at_ = name :: location := by
      rw [locate_eq_landing (h.linkFree hf) hat, Path.landing_of_last hlast,
        locate_eq_landing hf hlocate, h.here, Path.landing]
    have hbefore := (h.file_of_after hfile).resolve_left (hn name location hname)
    have hunder : tree.ScriptUnder input extension [name] (input.join ⟨name⟩) :=
      ⟨by simp, by simpa using hi, rfl, (Path.hasExtension_join hi extension).mpr hname, location,
        hlocate, by simp [hbefore]⟩
    have hne' : tree.locate .look (input.join ⟨name⟩) ≠ .error .noEntry := by
      intro hl
      exact hunder.lookup_ne hf hw (by rw [lookup, hl]; rfl)
    refine ⟨name, content, by simp [hbefore], hhidden, rfl, ?_, hname⟩
    exact lookup_eq_ok.mpr ⟨_, (h.locate_eq hne').symm.trans hat, hbefore⟩

theorem sought_iff_later (hw : tree.WellFormed) (hf : tree.LinkFree) (hw' : later.WellFormed)
    (h : Updates written tree later) (hn : NoScript extension written)
    (hd : tree.isDirectory input) :
    later.Sought input extension recursive p ↔ tree.Sought input extension recursive p := by
  refine ⟨sought_of_later hw hf hw' h hn hd, ?_⟩
  rintro ⟨location, hlocate, hp⟩
  refine ⟨location, h.locate_ok hlocate, ?_⟩
  cases recursive with
  | true =>
    obtain ⟨above, name, hdown, rfl, hname⟩ := hp
    obtain ⟨hne, content, hfile⟩ := hw.down_iff.mp hdown
    obtain ⟨content', hfile', -⟩ := h.file _ content hfile
    exact ⟨above, name, hw'.down_iff.mpr ⟨hne, content', hfile'⟩, rfl, hname⟩
  | false =>
    obtain ⟨name, content, hne, hhidden, rfl, hlook, hname⟩ := hp
    obtain ⟨content', hlook'⟩ := isFile_iff.mp (h.isFile (isFile_iff.mpr ⟨content, hlook⟩))
    refine ⟨name, content', ?_, hhidden, rfl, hlook', hname⟩
    rw [← Option.isSome_iff_ne_none] at hne ⊢
    exact h.find?_isSome hne

theorem directory_or_file (hw : tree.WellFormed) {targets : List Path}
    (hc : tree.collectTargets input extension recursive = .ok targets) :
    tree.isDirectory input ∨
      tree.isFile input ∧ input.hasExtension extension ∧ targets = [input] := by
  rcases collectTargets_ok hw hc with hfile | ⟨-, hall⟩
  · exact Or.inr hfile
  · obtain ⟨p, hp⟩ := List.exists_mem_of_ne_nil targets (collectTargets_ne_nil hc)
    obtain ⟨names, hunder⟩ := hall p hp
    exact Or.inl (hunder.isDirectory hw)

theorem collectTargets_later (hw : tree.WellFormed) (hf : tree.LinkFree) (hw' : later.WellFormed)
    (h : Updates written tree later) (hn : NoScript extension written) {targets : List Path}
    (hc : tree.collectTargets input extension recursive = .ok targets) :
    later.collectTargets input extension recursive = .ok targets := by
  rcases directory_or_file hw hc with hd | ⟨hfile, hext, rfl⟩
  · obtain ⟨hne, horder, hmem⟩ := (hw.collectTargets_eq_ok_iff hd).mp hc
    refine (hw'.collectTargets_eq_ok_iff (h.isDirectory hd)).mpr ⟨hne, horder, fun p => ?_⟩
    exact (hmem p).trans (sought_iff_later hw hf hw' h hn hd).symm
  · have hfile' := h.isFile hfile
    rw [collectTargets_eq, if_pos (pathExists_of_isFile hfile'), if_pos hfile', if_pos hext]

theorem isDirectory_later (hw : tree.WellFormed) (h : Updates written tree later)
    {targets : List Path} (hc : tree.collectTargets input extension recursive = .ok targets) :
    later.isDirectory input = tree.isDirectory input := by
  rcases directory_or_file hw hc with hd | ⟨hfile, -, -⟩
  · rw [hd, h.isDirectory hd]
  · rw [isDirectory_of_isFile hfile, isDirectory_of_isFile (h.isFile hfile)]

end FileTree

namespace BatchPlan

variable {tree planned later : FileTree} {input : Path} {options : ConvertOptions}
  {plan : BatchPlan}

theorem make_makeDirectories (h : make tree input options = (planned, .ok plan)) :
    tree.makeDirectories plan.outputDir = (planned, .ok ()) := by
  rcases make_cases tree input options with
    ⟨failure, -, hm⟩ | ⟨targets, made, -, ⟨cause, -, hm⟩ | ⟨hd, hm⟩⟩
  · cases h.symm.trans hm
  · cases h.symm.trans hm
  · obtain ⟨rfl, hplan⟩ := Prod.mk.inj (h.symm.trans hm)
    obtain rfl := Except.ok.inj hplan
    exact hd

theorem make_settled (h : make tree input options = (planned, .ok plan)) :
    planned.Settled plan.outputDir (.ok ()) :=
  FileTree.settled_of_makeDirectories (make_makeDirectories h)

/-- A plan is made again, without a change to the tree, where no script has been written. -/
theorem make_later (hw : tree.WellFormed) (hf : tree.LinkFree)
    (h : make tree input options = (planned, .ok plan)) {written : Location → Prop}
    (hu : FileTree.Updates written planned later) (hw' : later.WellFormed)
    (hn : FileTree.NoScript options.extension written) :
    make later input options = (later, .ok plan) := by
  obtain ⟨hcollect, hdir, hroot, hwell, hupdates⟩ := make_ok h
  have hall := (hupdates written).trans hu
  have hf' : planned.LinkFree := (hupdates written).linkFree hf
  have hdirectory : later.outputDirectory input options = plan.outputDir := by
    rw [hdir, FileTree.outputDirectory, FileTree.outputDirectory,
      FileTree.isDirectory_later hw hall hcollect]
  have hroot' : (if later.isDirectory input then input else input.parent?.getD ⟨[]⟩) =
      plan.root := by
    rw [hroot, FileTree.isDirectory_later hw hall hcollect,
      FileTree.isDirectory_later hw (hupdates written) hcollect]
  have hprepared : later.prepareOutputDirectory plan.outputDir = (later, .ok ()) := by
    have hsettled := (make_settled h).stays (hwell hw) hf' hu hw'
    rw [FileTree.prepareOutputDirectory, hsettled.makeDirectories hw' (hu.linkFree hf')]
    rfl
  rw [make, FileTree.collectTargets_later hw hf hw' hall hn hcollect]
  simp only [hdirectory, hprepared, hroot']

theorem noScript_of_extension (hw : tree.WellFormed)
    (h : make tree input options = (planned, .ok plan))
    (hext : options.extension.map foldAscii ≠ notebookExtension) (hf : later.LinkFree) :
    FileTree.NoScript options.extension
      fun location => ∃ s ∈ plan.targets, later.LeadsTo (plan.output s) location := by
  rintro name above ⟨stem, own, hname, hstem, hdot, hfold⟩ ⟨s, hs, hl⟩
  obtain ⟨-, -, -, hne, -, -⟩ := Path.exists_of_hasExtension (hasExtension_of_mem hw h hs)
  obtain ⟨front, hout⟩ := exists_components_outputPath s plan.root plan.outputDir
  have hlanding := FileTree.locate_eq_landing hf hl
  rw [output, Path.landing_of_last hout] at hlanding
  have hsplit : Path.splitName name = (s.stem, some notebookExtension) := by
    rw [(List.cons.inj hlanding).1]
    exact Path.splitName_append hne (by decide)
  rw [hname, Path.splitName_append hstem hdot] at hsplit
  obtain rfl := Option.some.inj (Prod.mk.inj hsplit).2
  exact hext (by rw [← hfold]; decide)

end BatchPlan

end ScriptNotebook
