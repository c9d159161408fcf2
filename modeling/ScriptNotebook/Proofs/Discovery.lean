import ScriptNotebook.Proofs.PathOrder

/-!
A search for scripts finds all there are and nothing else.  A search of everything below a folder
goes down through directories and takes files, a search of the folder alone takes what its entries
lead to.  The scripts come in order, however the entries of the tree are listed.
-/
namespace ScriptNotebook

/-- A stem, a dot and the extension in any case of ASCII letters. -/
def Text.IsScriptName (name extension : Text) : Prop :=
  ∃ stem own, name = stem ++ '.' :: own ∧ stem ≠ [] ∧ '.' ∉ own ∧
    own.map foldAscii = extension.map foldAscii

theorem Path.hasExtension_iff {p : Path} {front : List Component} {name : Text}
    (h : p.components = front ++ [.name name]) (extension : Text) :
    p.hasExtension extension = true ↔ name.IsScriptName extension := by
  have he : p.extension? = (splitName name).2 := by
    rw [extension?, fileName?_of_components h, Option.bind_some]
  rw [hasExtension, he]
  constructor
  · intro hx
    rcases hs : splitName name with ⟨stem, _ | own⟩
    · simp [hs] at hx
    · obtain ⟨hname, hstem, hdot⟩ := eq_append_of_splitName hs
      exact ⟨stem, own, hname, hstem, hdot, by simpa [hs] using hx⟩
  · rintro ⟨stem, own, rfl, hstem, hdot, hfold⟩
    rw [splitName_append hstem hdot]
    simpa using hfold

theorem Path.hasExtension_joinAll {base : Path} {above : List Text} {name : Text}
    (h : ∀ n ∈ above ++ [name], IsName n) (extension : Text) :
    (base.joinAll (above ++ [name])).hasExtension extension = true ↔
      name.IsScriptName extension := by
  have hc : (base.joinAll (above ++ [name])).components =
      (base.components ++ above.map .name) ++ [.name name] := by
    rw [components_joinAll h, List.map_append, List.append_assoc]
    rfl
  exact hasExtension_iff hc extension

theorem Path.hasExtension_join {base : Path} {name : Text} (h : IsName name) (extension : Text) :
    (base.join ⟨name⟩).hasExtension extension = true ↔ name.IsScriptName extension := by
  have h' : ∀ n ∈ [] ++ [name], IsName n := by simpa using h
  exact hasExtension_joinAll h' extension

namespace FileTree

/-- Names lead down from a location to a file, through directories only. -/
inductive Down (tree : FileTree) : Location → List Text → Prop
  | file {at_ : Location} {name : Text} {content : ByteArray}
      (h : tree.find? (name :: at_) = some (.file content)) : Down tree at_ [name]
  | directory {at_ : Location} {name : Text} {names : List Text}
      (h : tree.find? (name :: at_) = some .directory) (rest : Down tree (name :: at_) names) :
      Down tree at_ (name :: names)

/-- What a search for scripts is to find, below a folder or in it. -/
def Sought (tree : FileTree) (folder : Path) (extension : Text) (recursive : Bool) (p : Path) :
    Prop :=
  ∃ location, tree.locate .look folder = .ok location ∧
    match recursive with
    | true => ∃ above name, tree.Down location (above ++ [name]) ∧
        p = folder.joinAll (above ++ [name]) ∧ name.IsScriptName extension
    | false => ∃ name content, tree.find? (name :: location) ≠ none ∧ name.head? ≠ some '.' ∧
        p = folder.join ⟨name⟩ ∧ tree.lookup .look p = .ok (.file content) ∧
        name.IsScriptName extension

variable {tree : FileTree} {folder p : Path} {extension : Text} {location : Location}

namespace WellFormed

theorem mem_children_iff (hw : tree.WellFormed) {name : Text} {entry : Entry} :
    (name, entry) ∈ tree.children location ↔ tree.find? (name :: location) = some entry := by
  refine ⟨fun hm => (hw.mem_children hm).2, fun hf => ?_⟩
  exact List.mem_filterMap.mpr ⟨_, mem_of_find? hf, if_pos rfl⟩

theorem mem_below_iff (hw : tree.WellFormed) {names : List Text} {entry : Entry} :
    (names, entry) ∈ tree.below location ↔
      names ≠ [] ∧ tree.find? (names.reverse ++ location) = some entry := by
  refine ⟨fun hm => ⟨(hw.mem_below hm).1, (hw.mem_below hm).2.2⟩, ?_⟩
  rintro ⟨hne, hf⟩
  have hl : names.reverse ++ location ≠ location := by
    simpa using hne
  obtain ⟨name, above, hcons⟩ := List.exists_cons_of_ne_nil
    (List.append_ne_nil_of_left_ne_nil (List.reverse_ne_nil_iff.mpr hne) location)
  have hm : (names.reverse ++ location, entry) ∈ tree.entries := by
    rw [hcons] at hf ⊢
    exact mem_of_find? hf
  refine List.mem_filterMap.mpr ⟨_, hm, ?_⟩
  rw [if_pos ⟨List.isSuffixOf_iff_suffix.mpr (List.suffix_append _ _), hl⟩]
  simp

theorem isName_of_find? (hw : tree.WellFormed) {name : Text} {entry : Entry}
    (hf : tree.find? (name :: location) = some entry) : Path.IsName name :=
  (hw.names _ (mem_of_find? hf)).2 name List.mem_cons_self

theorem down_iff (hw : tree.WellFormed) {names : List Text} :
    tree.Down location names ↔
      names ≠ [] ∧ ∃ content, tree.find? (names.reverse ++ location) = some (.file content) := by
  constructor
  · intro h
    induction h with
    | file h => exact ⟨List.cons_ne_nil _ _, _, h⟩
    | directory h rest ih => exact ⟨List.cons_ne_nil _ _, by simpa using ih.2⟩
  · rintro ⟨hne, content, hf⟩
    induction names generalizing location with
    | nil => exact absurd rfl hne
    | cons name names ih =>
      rw [List.reverse_cons, List.append_assoc, List.singleton_append] at hf
      by_cases hn : names = []
      · subst hn
        exact .file hf
      · have hd : tree.find? (name :: location) = some .directory :=
          hw.find?_above (List.reverse_ne_nil_iff.mpr hn) (by simp [hf])
        exact .directory hd (ih hn hf)

theorem isName_of_down (hw : tree.WellFormed) {names : List Text} (h : tree.Down location names) :
    ∀ name ∈ names, Path.IsName name := by
  induction h with
  | file h => simpa using hw.isName_of_find? h
  | directory h rest ih => exact List.forall_mem_cons.mpr ⟨hw.isName_of_find? h, ih⟩

theorem mem_scriptsBelow_iff (hw : tree.WellFormed) :
    p ∈ tree.scriptsBelow folder extension ↔ tree.Sought folder extension true p := by
  rw [Sought, scriptsBelow]
  cases hl : tree.locate .look folder with
  | error cause => simp
  | ok location =>
    simp only [List.mem_filterMap, Except.ok.injEq, exists_eq_left']
    constructor
    · rintro ⟨⟨names, entry⟩, hm, hp⟩
      obtain ⟨hne, hf⟩ := hw.mem_below_iff.mp hm
      cases entry with
      | directory => cases hp
      | link target => cases hp
      | file content =>
        obtain ⟨hext, hp⟩ := Option.ite_none_right_eq_some.mp hp
        obtain ⟨above, name, rfl⟩ := (List.eq_nil_or_concat names).resolve_left hne
        rw [List.concat_eq_append] at hf hext hp
        have hdown : tree.Down location (above ++ [name]) :=
          hw.down_iff.mpr ⟨by simp, content, hf⟩
        exact ⟨above, name, hdown, (Option.some.inj hp).symm,
          (Path.hasExtension_joinAll (hw.isName_of_down hdown) extension).mp hext⟩
    · rintro ⟨above, name, hdown, rfl, hname⟩
      obtain ⟨hne, content, hf⟩ := hw.down_iff.mp hdown
      refine ⟨(above ++ [name], .file content), hw.mem_below_iff.mpr ⟨hne, hf⟩, ?_⟩
      exact if_pos ((Path.hasExtension_joinAll (hw.isName_of_down hdown) extension).mpr hname)

theorem exists_scriptsIn (hw : tree.WellFormed) (hd : tree.isDirectory folder) :
    ∃ found, tree.scriptsIn folder extension = .ok found ∧
      ∀ p, p ∈ found ↔ tree.Sought folder extension false p := by
  obtain ⟨location, hl, hf⟩ := lookup_eq_ok.mp (isDirectory_iff.mp hd)
  have hlist : tree.listNames folder = .ok ((tree.children location).map (·.1)) := by
    simp only [listNames, hl, hf, bind, Except.bind]
  refine ⟨_, by rw [scriptsIn, hlist]; rfl, fun p => ?_⟩
  simp only [Sought, hl, Except.ok.injEq, exists_eq_left', List.mem_filter, List.mem_map,
    Bool.and_eq_true, decide_eq_true_eq, isFile_iff]
  constructor
  · rintro ⟨⟨name, ⟨⟨⟨name', entry⟩, hm, rfl⟩, hhidden⟩, rfl⟩, ⟨content, hlook⟩, hext⟩
    have hentry := hw.mem_children_iff.mp hm
    exact ⟨name', content, by simp [hentry], hhidden, rfl, hlook,
      (Path.hasExtension_join (hw.isName_of_find? hentry) extension).mp hext⟩
  · rintro ⟨name, content, hne, hhidden, rfl, hlook, hname⟩
    obtain ⟨entry, hentry⟩ := Option.ne_none_iff_exists'.mp hne
    exact ⟨⟨name, ⟨⟨(name, entry), hw.mem_children_iff.mpr hentry, rfl⟩, hhidden⟩, rfl⟩,
      ⟨content, hlook⟩,
      (Path.hasExtension_join (hw.isName_of_find? hentry) extension).mpr hname⟩

theorem exists_scriptsOf (hw : tree.WellFormed) (hd : tree.isDirectory folder)
    (extension : Text) (recursive : Bool) :
    ∃ found, tree.scriptsOf folder extension recursive = .ok found ∧
      ∀ p, p ∈ found ↔ tree.Sought folder extension recursive p := by
  cases recursive with
  | true => exact ⟨_, rfl, fun p => hw.mem_scriptsBelow_iff⟩
  | false => exact hw.exists_scriptsIn hd

theorem collectTargets_cases (hw : tree.WellFormed) (hd : tree.isDirectory folder)
    (extension : Text) (recursive : Bool) :
    (∃ targets, tree.collectTargets folder extension recursive = .ok targets ∧ targets ≠ [] ∧
        Path.InOrder targets ∧ ∀ p, p ∈ targets ↔ tree.Sought folder extension recursive p) ∨
      tree.collectTargets folder extension recursive = .error (.noInputs folder extension) ∧
        ∀ p, ¬ tree.Sought folder extension recursive p := by
  obtain ⟨found, hfound, hmem⟩ := hw.exists_scriptsOf hd extension recursive
  obtain ⟨hnodup, hunder⟩ := scriptsOf_ok hw hfound
  rw [collectTargets_eq, if_pos (pathExists_of_isDirectory hd), isFile_of_isDirectory hd,
    if_neg Bool.false_ne_true, hfound]
  by_cases hnil : found = []
  · refine Or.inr ⟨if_pos hnil, fun p hp => ?_⟩
    simpa [hnil] using (hmem p).mpr hp
  · refine Or.inl ⟨Path.sort found, if_neg hnil, mt Path.sort_eq_nil_iff.mp hnil,
      Path.inOrder_sort ?_, fun p => (Path.sort_perm found).mem_iff.trans (hmem p)⟩
    refine hnodup.imp_of_mem fun hp hq hne hc => hne ?_
    obtain ⟨names, hp⟩ := hunder _ hp
    obtain ⟨names', hq⟩ := hunder _ hq
    exact hp.eq_of_components hq hc

theorem collectTargets_eq_ok_iff (hw : tree.WellFormed) (hd : tree.isDirectory folder)
    {recursive : Bool} {targets : List Path} :
    tree.collectTargets folder extension recursive = .ok targets ↔
      targets ≠ [] ∧ Path.InOrder targets ∧
        ∀ p, p ∈ targets ↔ tree.Sought folder extension recursive p := by
  rcases hw.collectTargets_cases hd extension recursive with
    ⟨found, hfound, hne, horder, hmem⟩ | ⟨hnone, hmem⟩
  · rw [hfound, Except.ok.injEq]
    constructor
    · rintro rfl
      exact ⟨hne, horder, hmem⟩
    · rintro ⟨-, horder', hmem'⟩
      exact horder.eq_of_mem_iff horder' fun p => (hmem p).trans (hmem' p).symm
  · rw [hnone]
    constructor
    · intro h
      cases h
    · rintro ⟨hne, -, hmem'⟩
      obtain ⟨p, rest, rfl⟩ := List.exists_cons_of_ne_nil hne
      exact absurd ((hmem' p).mp List.mem_cons_self) (hmem p)

end WellFormed

/-- One thing stands at each location in both trees. -/
structure Alike (tree other : FileTree) : Prop where
  find? : ∀ location, other.find? location = tree.find? location
  here : other.here = tree.here

theorem WellFormed.alike_of_perm {other : FileTree} (hw : tree.WellFormed)
    (hp : other.entries.Perm tree.entries) (hh : other.here = tree.here) :
    other.WellFormed ∧ tree.Alike other := by
  have hunique : (other.entries.map (·.1)).Nodup := (hp.map (·.1)).nodup_iff.mpr hw.unique
  have hfind : ∀ location, other.find? location = tree.find? location := by
    intro location
    cases location with
    | nil => rfl
    | cons name above =>
      refine Option.ext fun entry => ⟨fun hf => ?_, fun hf => ?_⟩
      · exact hw.find?_of_mem (hp.mem_iff.mp (mem_of_find? hf))
      · rw [FileTree.find?, find?_fst_of_mem hunique (hp.mem_iff.mpr (mem_of_find? hf))]
        rfl
  refine ⟨⟨fun e he => hw.names e (hp.mem_iff.mp he), hunique,
    fun e he => (hfind _).trans (hw.above e (hp.mem_iff.mp he)), ?_⟩, hfind, hh⟩
  rw [hh, hfind, hw.here]

namespace Alike

variable {other : FileTree}

theorem symm (h : tree.Alike other) : other.Alike tree :=
  ⟨fun location => (h.find? location).symm, h.here.symm⟩

theorem updates (h : tree.Alike other) : Updates (fun _ => False) tree other where
  here := h.here
  directory location hd := (h.find? location).trans hd
  link location _ hl := (h.find? location).trans hl
  file location content hc := ⟨content, (h.find? location).trans hc, fun _ => rfl⟩
  fresh location hn := Or.inl ((h.find? location).trans hn)

theorem locate_eq (h : tree.Alike other) (purpose : Purpose) (p : Path) :
    other.locate purpose p = tree.locate purpose p := by
  by_cases hn : tree.locate purpose p = .error .noEntry
  · by_cases hn' : other.locate purpose p = .error .noEntry
    · rw [hn, hn']
    · exact (h.symm.updates.locate_eq hn').symm
  · exact h.updates.locate_eq hn

theorem lookup_eq (h : tree.Alike other) (purpose : Purpose) (p : Path) :
    other.lookup purpose p = tree.lookup purpose p := by
  simp only [lookup, h.locate_eq, h.find?]

theorem sought_iff (h : tree.Alike other) (hw : tree.WellFormed) (hw' : other.WellFormed)
    {recursive : Bool} :
    other.Sought folder extension recursive p ↔ tree.Sought folder extension recursive p := by
  simp only [Sought, h.locate_eq, h.lookup_eq, h.find?, hw.down_iff, hw'.down_iff]

end Alike

/-- A search of a folder fails for want of scripts exactly if there is nothing to be found, and
otherwise it gives all that is to be found and only that, in order and thus each once, however the
entries of the tree are listed. -/
theorem collectTargets_folder (hw : tree.WellFormed) (hd : tree.isDirectory folder)
    (extension : Text) (recursive : Bool) :
    (tree.collectTargets folder extension recursive = .error (.noInputs folder extension) ↔
        ∀ p, ¬ tree.Sought folder extension recursive p) ∧
      ((∃ p, tree.Sought folder extension recursive p) →
        ∃ targets, tree.collectTargets folder extension recursive = .ok targets) ∧
      (∀ targets, tree.collectTargets folder extension recursive = .ok targets ↔
        targets ≠ [] ∧ Path.InOrder targets ∧
          ∀ p, p ∈ targets ↔ tree.Sought folder extension recursive p) ∧
      ∀ other : FileTree, other.entries.Perm tree.entries → other.here = tree.here →
        other.collectTargets folder extension recursive =
          tree.collectTargets folder extension recursive := by
  have hcases := hw.collectTargets_cases hd extension recursive
  refine ⟨⟨fun hnone => ?_, fun hnone => ?_⟩, ?_, fun targets => hw.collectTargets_eq_ok_iff hd,
    fun other hp hh => ?_⟩
  · rcases hcases with ⟨targets, hfound, -⟩ | ⟨-, hmem⟩
    · cases hfound.symm.trans hnone
    · exact hmem
  · rcases hcases with ⟨targets, -, hne, -, hmem⟩ | ⟨hnone, -⟩
    · obtain ⟨p, hp⟩ := List.exists_mem_of_ne_nil targets hne
      exact absurd ((hmem p).mp hp) (hnone p)
    · exact hnone
  · rintro ⟨p, hp⟩
    rcases hcases with ⟨targets, hfound, -⟩ | ⟨-, hmem⟩
    · exact ⟨targets, hfound⟩
    · exact absurd hp (hmem p)
  · obtain ⟨hw', halike⟩ := hw.alike_of_perm hp hh
    have hd' : other.isDirectory folder := by
      rw [isDirectory_iff, halike.lookup_eq]
      exact isDirectory_iff.mp hd
    have hsought : ∀ p, other.Sought folder extension recursive p ↔
        tree.Sought folder extension recursive p := fun p => halike.sought_iff hw hw'
    -- What is to be found is the same, and the order leaves no choice.
    rcases hcases with ⟨targets, hfound, hne, horder, hmem⟩ | ⟨hnone, hmem⟩
    · rw [hfound]
      exact (hw'.collectTargets_eq_ok_iff hd').mpr
        ⟨hne, horder, fun p => (hmem p).trans (hsought p).symm⟩
    · rw [hnone]
      rcases hw'.collectTargets_cases hd' extension recursive with
        ⟨targets, -, hne, -, hmem'⟩ | ⟨hnone', -⟩
      · obtain ⟨p, hp⟩ := List.exists_mem_of_ne_nil targets hne
        exact absurd ((hsought p).mp ((hmem' p).mp hp)) (hmem p)
      · exact hnone'

/-- A folder with links, a hidden script, and a directory that is named like a script. -/
def searchTree : FileTree where
  entries := [(["b.py".toList], .ofText "x = 1".toList), (["a.PY".toList], .ofText "".toList),
    ([".c.py".toList], .ofText "".toList), (["link.py".toList], .link ⟨"a.PY".toList⟩),
    (["lost.py".toList], .link ⟨"gone.py".toList⟩), (["pkg.py".toList], .directory),
    (["deep.py".toList, "pkg.py".toList], .ofText "".toList),
    (["loop".toList, "pkg.py".toList], .link ⟨"..".toList⟩), (["notes".toList], .ofText [])]
  here := []

theorem searchTree_collectTargets :
    searchTree.WellFormed ∧ searchTree.isDirectory (.ofString ".") ∧
      (∃ p, searchTree.Sought (.ofString ".") "py".toList true p) ∧
      (∀ p, p ∈ [Path.ofString "./.c.py", .ofString "./a.PY", .ofString "./b.py",
          .ofString "./pkg.py/deep.py"] ↔
        searchTree.Sought (.ofString ".") "py".toList true p) ∧
      (∀ p, p ∈ [Path.ofString "./a.PY", .ofString "./b.py", .ofString "./link.py"] ↔
        searchTree.Sought (.ofString ".") "py".toList false p) ∧
      FileTree.collectTargets ⟨searchTree.entries.reverse, []⟩ (.ofString ".") "py".toList false =
        .ok [.ofString "./a.PY", .ofString "./b.py", .ofString "./link.py"] := by
  have hw : searchTree.WellFormed := by decide +kernel
  have hd : searchTree.isDirectory (.ofString ".") := by decide +kernel
  obtain ⟨-, -, hbelow, -⟩ := collectTargets_folder hw hd "py".toList true
  obtain ⟨-, -, hin, hany⟩ := collectTargets_folder hw hd "py".toList false
  have hfound : searchTree.collectTargets (.ofString ".") "py".toList true =
      .ok [.ofString "./.c.py", .ofString "./a.PY", .ofString "./b.py",
        .ofString "./pkg.py/deep.py"] := by
    decide +kernel
  have hfound' : searchTree.collectTargets (.ofString ".") "py".toList false =
      .ok [.ofString "./a.PY", .ofString "./b.py", .ofString "./link.py"] := by
    decide +kernel
  have hmem := ((hbelow _).mp hfound).2.2
  exact ⟨hw, hd, ⟨_, (hmem _).mp List.mem_cons_self⟩, hmem, ((hin _).mp hfound').2.2,
    (hany ⟨_, []⟩ (List.reverse_perm _) rfl).trans hfound'⟩

end FileTree

end ScriptNotebook
