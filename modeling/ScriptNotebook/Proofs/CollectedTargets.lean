import ScriptNotebook.Targets
import ScriptNotebook.Proofs.TreeUpdates
import ScriptNotebook.Proofs.WellFormedTrees

/-!
What is collected for an input: the input itself, or scripts that names lead to from the folder,
each of them once.
-/
namespace ScriptNotebook

namespace Path

theorem insert_perm (p : Path) (paths : List Path) : (insert p paths).Perm (p :: paths) := by
  induction paths with
  | nil => rfl
  | cons q rest ih =>
    rw [insert]
    split
    · exact (ih.cons q).trans (List.Perm.swap p q rest)
    · rfl

theorem sort_perm (paths : List Path) : (sort paths).Perm paths := by
  induction paths with
  | nil => rfl
  | cons p paths ih => exact (insert_perm p (sort paths)).trans (ih.cons p)

theorem sort_eq_nil_iff {paths : List Path} : sort paths = [] ↔ paths = [] := by
  rw [← List.length_eq_zero_iff, (sort_perm paths).length_eq, List.length_eq_zero_iff]

theorem components_joinAll {names : List Text} (h : ∀ name ∈ names, IsName name) (base : Path) :
    (base.joinAll names).components = base.components ++ names.map .name := by
  induction names generalizing base with
  | nil => simp [joinAll]
  | cons name names ih =>
    have hn : IsName name := h name List.mem_cons_self
    have hrest := ih (fun n hn => h n (List.mem_cons_of_mem name hn)) (base.join ⟨name⟩)
    rw [joinAll, List.foldl_cons, ← joinAll, hrest, components_join (parts_fst_name hn),
      components_name hn, List.append_assoc, List.map_cons, List.singleton_append]

theorem joinAll_inj {base : Path} {names names' : List Text} (h : ∀ name ∈ names, IsName name)
    (h' : ∀ name ∈ names', IsName name) (he : base.joinAll names = base.joinAll names') :
    names = names' := by
  have hc : base.components ++ names.map .name = base.components ++ names'.map .name := by
    rw [← components_joinAll h, ← components_joinAll h', he]
  exact List.map_injective_iff.mpr (fun _ _ => Component.name.inj) (List.append_cancel_left hc)

theorem exists_of_hasExtension {p : Path} {extension : Text} (h : p.hasExtension extension) :
    ∃ front own, p.components = front ++ [.name (p.stem ++ '.' :: own)] ∧ p.stem ≠ [] ∧
      p.extension? = some own ∧ own.map foldAscii = extension.map foldAscii := by
  rw [hasExtension] at h
  split at h
  · next own he =>
    obtain ⟨name, hn, hs⟩ := Option.bind_eq_some_iff.mp he
    obtain ⟨front, hf⟩ := components_of_fileName? hn
    have hstem : p.stem = (splitName name).1 := by simp [stem, hn]
    have hsplit : splitName name = (p.stem, some own) := by rw [hstem, ← hs]
    obtain ⟨hname, hne, -⟩ := eq_append_of_splitName hsplit
    exact ⟨front, own, by rw [← hname, hf], hne, he, by simpa using h⟩
  · cases h

end Path

namespace FileTree

section

variable {tree : FileTree} {input : Path}

theorem lookup_eq_ok {purpose : Purpose} {entry : Entry} :
    tree.lookup purpose input = .ok entry ↔
      ∃ location, tree.locate purpose input = .ok location ∧
        tree.find? location = some entry := by
  simp only [lookup, bind, Except.bind]
  cases tree.locate purpose input with
  | error cause => simp
  | ok location => cases hf : tree.find? location <;> simp [hf]

theorem isFile_iff :
    tree.isFile input = true ↔ ∃ content, tree.lookup .look input = .ok (.file content) := by
  rw [isFile]
  split <;> simp_all

theorem isDirectory_iff :
    tree.isDirectory input = true ↔ tree.lookup .look input = .ok .directory := by
  rw [isDirectory]
  split <;> simp_all

theorem pathExists_of_isFile (h : tree.isFile input) : tree.pathExists input = true := by
  obtain ⟨content, hl⟩ := isFile_iff.mp h
  rw [pathExists, hl]
  rfl

theorem pathExists_of_isDirectory (h : tree.isDirectory input) :
    tree.pathExists input = true := by
  rw [pathExists, isDirectory_iff.mp h]
  rfl

theorem isFile_of_isDirectory (h : tree.isDirectory input) : tree.isFile input = false := by
  rw [isFile, isDirectory_iff.mp h]

theorem isDirectory_of_isFile (h : tree.isFile input) : tree.isDirectory input = false := by
  obtain ⟨content, hl⟩ := isFile_iff.mp h
  rw [isDirectory, hl]

end

/-- Names lead from the folder to an entry, and the path through them has the extension. -/
structure ScriptUnder (tree : FileTree) (folder : Path) (extension : Text) (names : List Text)
    (p : Path) : Prop where
  nonempty : names ≠ []
  allNames : ∀ name ∈ names, Path.IsName name
  path : p = folder.joinAll names
  hasExtension : p.hasExtension extension
  stands : ∃ location, tree.locate .look folder = .ok location ∧
    tree.find? (names.reverse ++ location) ≠ none

variable {tree : FileTree} {folder p : Path} {extension : Text} {names : List Text}

theorem ScriptUnder.isDirectory (hw : tree.WellFormed)
    (h : tree.ScriptUnder folder extension names p) : tree.isDirectory folder := by
  obtain ⟨location, hl, hf⟩ := h.stands
  have hd : tree.find? location = some .directory :=
    hw.find?_above (List.reverse_ne_nil_iff.mpr h.nonempty) hf
  simp [FileTree.isDirectory, lookup, hl, hd, bind, Except.bind]

theorem ScriptUnder.components (h : tree.ScriptUnder folder extension names p) :
    p.components = folder.components ++ names.map .name := by
  rw [h.path, Path.components_joinAll h.allNames]

theorem ScriptUnder.eq_of_components {q : Path} {names' : List Text}
    (h : tree.ScriptUnder folder extension names p)
    (h' : tree.ScriptUnder folder extension names' q) (hc : p.components = q.components) :
    p = q := by
  rw [h.components, h'.components] at hc
  have hnames : names = names' :=
    List.map_injective_iff.mpr (fun _ _ => Path.Component.name.inj) (List.append_cancel_left hc)
  rw [h.path, h'.path, hnames]

theorem scriptsIn_ok (hw : tree.WellFormed) {found : List Path}
    (h : tree.scriptsIn folder extension = .ok found) :
    found.Nodup ∧ ∀ p ∈ found, ∃ names, tree.ScriptUnder folder extension names p := by
  obtain ⟨listed, hlisted, h⟩ := bind_eq_ok.mp h
  obtain ⟨location, hl, hlist⟩ := bind_eq_ok.mp (mapError_eq_ok.mp hlisted)
  obtain rfl := Except.ok.inj h
  have hchildren : listed = (tree.children location).map (·.1) := by
    split at hlist
    · exact (Except.ok.inj hlist).symm
    · cases hlist
    · cases hlist
  have hname : ∀ name ∈ listed, Path.IsName name ∧ tree.find? (name :: location) ≠ none := by
    intro name hn
    rw [hchildren] at hn
    obtain ⟨⟨name, entry⟩, hm, rfl⟩ := List.mem_map.mp hn
    obtain ⟨hi, hf⟩ := hw.mem_children hm
    exact ⟨hi, by simp [hf]⟩
  constructor
  · refine List.Nodup.filter _ ?_
    refine (List.Nodup.filter _ ?_).map_on ?_
    · rw [hchildren]
      exact hw.children_nodup location
    · intro name hn name' hn' he
      have hi := (hname name (List.mem_of_mem_filter hn)).1
      have hi' := (hname name' (List.mem_of_mem_filter hn')).1
      have hsingle : [name] = [name'] :=
        Path.joinAll_inj (by simpa using hi) (by simpa using hi') he
      exact List.singleton_inj.mp hsingle
  · intro p hp
    obtain ⟨hp, hk⟩ := List.mem_filter.mp hp
    obtain ⟨name, hn, rfl⟩ := List.mem_map.mp hp
    obtain ⟨hi, hf⟩ := hname name (List.mem_of_mem_filter hn)
    have hext : (folder.join ⟨name⟩).hasExtension extension := (Bool.and_eq_true_iff.mp hk).2
    exact ⟨[name], by simp, by simpa using hi, rfl, hext, location, hl, hf⟩

theorem scriptsBelow_eq {location : Location} (hl : tree.locate .look folder = .ok location)
    (extension : Text) :
    ∃ script : List Text × Entry → Option Path,
      tree.scriptsBelow folder extension = (tree.below location).filterMap script ∧
      ∀ e p, script e = some p → p = folder.joinAll e.1 ∧ p.hasExtension extension := by
  refine ⟨_, by rw [scriptsBelow, hl], ?_⟩
  rintro ⟨names, entry⟩ p hp
  cases entry with
  | file content =>
    obtain ⟨hext, hp⟩ := Option.ite_none_right_eq_some.mp hp
    obtain rfl := Option.some.inj hp
    exact ⟨rfl, hext⟩
  | directory => cases hp
  | link target => cases hp

theorem scriptsBelow_spec (hw : tree.WellFormed) (folder : Path) (extension : Text) :
    (tree.scriptsBelow folder extension).Nodup ∧
      ∀ p ∈ tree.scriptsBelow folder extension,
        ∃ names, tree.ScriptUnder folder extension names p := by
  cases hl : tree.locate .look folder with
  | error e => simp [scriptsBelow, hl]
  | ok location =>
    obtain ⟨script, hscript, hsome⟩ := scriptsBelow_eq hl extension
    have hunder : ∀ e ∈ tree.below location, ∀ p, script e = some p →
        tree.ScriptUnder folder extension e.1 p := by
      rintro ⟨names, entry⟩ he p hp
      obtain ⟨hne, hi, hf⟩ := hw.mem_below he
      obtain ⟨rfl, hext⟩ := hsome _ p hp
      exact ⟨hne, hi, rfl, hext, location, hl, by simp [hf]⟩
    rw [hscript]
    constructor
    · have hb := List.pairwise_map.mp (hw.below_nodup location)
      refine List.pairwise_filterMap.mpr (hb.imp_of_mem ?_)
      rintro e f he hf hne p hp q hq rfl
      have hs := hunder e he p hp
      have hs' := hunder f hf p hq
      exact hne (Path.joinAll_inj hs.allNames hs'.allNames (by rw [← hs.path, ← hs'.path]))
    · intro p hp
      obtain ⟨e, he, hp⟩ := List.mem_filterMap.mp hp
      exact ⟨e.1, hunder e he p hp⟩

/-- The scripts that a folder stands for, its own or all below it. -/
def scriptsOf (tree : FileTree) (folder : Path) (extension : Text) (recursive : Bool) :
    Except Failure (List Path) :=
  if recursive then .ok (tree.scriptsBelow folder extension) else tree.scriptsIn folder extension

theorem sorted_or_noInputs (folder : Path) (extension : Text) (found : List Path) :
    (match Path.sort found with
      | [] => throw (Failure.noInputs folder extension)
      | targets => return targets : Except Failure (List Path)) =
      if found = [] then .error (.noInputs folder extension) else .ok (Path.sort found) := by
  by_cases hf : found = []
  · rw [if_pos hf, Path.sort_eq_nil_iff.mpr hf]
    rfl
  · rw [if_neg hf]
    split
    · next hs => exact absurd (Path.sort_eq_nil_iff.mp hs) hf
    · rfl

theorem collectTargets_eq (tree : FileTree) (folder : Path) (extension : Text)
    (recursive : Bool) :
    tree.collectTargets folder extension recursive =
      if tree.pathExists folder then
        if tree.isFile folder then
          if folder.hasExtension extension then .ok [folder]
          else .error (.unsupportedInput folder extension)
        else
          match tree.scriptsOf folder extension recursive with
          | .error failure => .error failure
          | .ok found =>
            if found = [] then .error (.noInputs folder extension) else .ok (Path.sort found)
      else .error (.notFound folder) := by
  rw [collectTargets]
  cases tree.pathExists folder with
  | false => rfl
  | true =>
    cases tree.isFile folder with
    | true => cases folder.hasExtension extension <;> rfl
    | false =>
      cases recursive with
      | true => exact sorted_or_noInputs folder extension _
      | false =>
        rw [scriptsOf, if_neg Bool.false_ne_true]
        cases hs : tree.scriptsIn folder extension with
        | error failure => rfl
        | ok found => exact sorted_or_noInputs folder extension found

theorem collectTargets_cases {recursive : Bool} {targets : List Path}
    (h : tree.collectTargets folder extension recursive = .ok targets) :
    (tree.isFile folder ∧ folder.hasExtension extension ∧ targets = [folder]) ∨
      ∃ found, targets = Path.sort found ∧
        tree.scriptsOf folder extension recursive = .ok found := by
  rw [collectTargets_eq] at h
  split at h
  · split at h
    · next hf =>
      split at h
      · next hext => exact Or.inl ⟨hf, hext, (Except.ok.inj h).symm⟩
      · cases h
    · split at h
      · cases h
      · next found hfound =>
        split at h
        · cases h
        · exact Or.inr ⟨found, (Except.ok.inj h).symm, hfound⟩
  · cases h

theorem collectTargets_ne_nil {recursive : Bool} {targets : List Path}
    (h : tree.collectTargets folder extension recursive = .ok targets) : targets ≠ [] := by
  rw [collectTargets_eq] at h
  split at h
  · split at h
    · split at h
      · rw [← Except.ok.inj h]
        exact List.cons_ne_nil folder []
      · cases h
    · split at h
      · cases h
      · split at h
        · cases h
        · next hne =>
          rw [← Except.ok.inj h]
          exact mt Path.sort_eq_nil_iff.mp hne
  · cases h

theorem scriptsOf_error {recursive : Bool} {failure : Failure}
    (h : tree.scriptsOf folder extension recursive = .error failure) :
    ∃ cause, failure = .file folder cause := by
  rw [scriptsOf] at h
  split at h
  · cases h
  · rw [scriptsIn] at h
    cases hl : tree.listNames folder with
    | ok names => simp [hl, Except.mapError, bind, Except.bind, pure, Except.pure] at h
    | error cause =>
      simp only [hl, Except.mapError, bind, Except.bind, Except.error.injEq] at h
      exact ⟨cause, h.symm⟩

/-- A search for targets fails for the input, be it that it is missing or what it is. -/
theorem collectTargets_error {recursive : Bool} {failure : Failure}
    (h : tree.collectTargets folder extension recursive = .error failure) :
    (tree.pathExists folder = false ∧ failure = .notFound folder) ∨
      (tree.pathExists folder = true ∧
        (failure = .unsupportedInput folder extension ∨ failure = .noInputs folder extension ∨
          ∃ cause, failure = .file folder cause)) := by
  rw [collectTargets_eq] at h
  split at h
  · next hx =>
    refine Or.inr ⟨hx, ?_⟩
    split at h
    · split at h
      · cases h
      · exact Or.inl (Except.error.inj h).symm
    · split at h
      · next hs =>
        obtain rfl := Except.error.inj h
        exact Or.inr (Or.inr (scriptsOf_error hs))
      · split at h
        · exact Or.inr (Or.inl (Except.error.inj h).symm)
        · cases h
  · next hx => exact Or.inl ⟨Bool.not_eq_true _ ▸ hx, (Except.error.inj h).symm⟩

theorem scriptsOf_ok (hw : tree.WellFormed) {recursive : Bool} {found : List Path}
    (h : tree.scriptsOf folder extension recursive = .ok found) :
    found.Nodup ∧ ∀ p ∈ found, ∃ names, tree.ScriptUnder folder extension names p := by
  rw [scriptsOf] at h
  split at h
  · obtain rfl := Except.ok.inj h
    exact scriptsBelow_spec hw folder extension
  · exact scriptsIn_ok hw h

/-- What is collected is the input, a file, or the scripts of the input, a folder, each once. -/
theorem collectTargets_ok (hw : tree.WellFormed) {recursive : Bool} {targets : List Path}
    (h : tree.collectTargets folder extension recursive = .ok targets) :
    (tree.isFile folder ∧ folder.hasExtension extension ∧ targets = [folder]) ∨
      (targets.Nodup ∧ ∀ p ∈ targets, ∃ names, tree.ScriptUnder folder extension names p) := by
  rcases collectTargets_cases h with h | ⟨found, rfl, hfound⟩
  · exact Or.inl h
  · obtain ⟨hnodup, hunder⟩ := scriptsOf_ok hw hfound
    exact Or.inr ⟨(Path.sort_perm found).nodup_iff.mpr hnodup,
      fun p hp => hunder p ((Path.sort_perm found).mem_iff.mp hp)⟩

end FileTree

end ScriptNotebook
