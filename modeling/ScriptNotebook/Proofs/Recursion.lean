import ScriptNotebook.Proofs.ContinuedWalks
import ScriptNotebook.Proofs.Discovery
import ScriptNotebook.Proofs.FoundScripts

/-!
What a search of a folder alone finds against what a search of everything below it finds.  The
first asks where a path leads and so takes links to scripts; the second takes an entry for what it
is and leaves them out.  All else that the first finds, the second finds too.
-/
namespace ScriptNotebook.FileTree

variable {tree : FileTree} {purpose : Purpose} {location : Location} {name : Text}
  {result : Except SystemError Location}

/-- The path of a directory and a name lead where the name leads from the directory. -/
theorem locate_join {folder : Path} (hl : tree.locate .look folder = .ok location)
    (hd : tree.find? location = some .directory) (hn : Path.IsName name)
    (hc : checkPath (folder.join ⟨name⟩) = .ok ())
    (hend : ∀ onLink, walk tree purpose onLink location [.name name] = result) :
    tree.locate purpose (folder.join ⟨name⟩) = result := by
  obtain ⟨u, hcf, hw⟩ := bind_eq_ok.mp hl
  have hb : folder.text ≠ [] := text_ne_nil_of_checkPath hcf
  have hnames : ∀ n ∈ [name], Path.IsName n := by simpa using hn
  have habs : (folder.join ⟨name⟩).isAbsolute = folder.isAbsolute :=
    Path.isAbsolute_joinAll hnames folder
  have hsteps : walkSteps (folder.join ⟨name⟩) = pathSteps folder ++ [.name name] :=
    walkSteps_joinAll hb (List.cons_ne_nil _ _) hnames
  obtain ⟨tail, htail, hfolder⟩ :
      ∃ tail, (tail = [] ∨ tail = [.slash]) ∧ walkSteps folder = pathSteps folder ++ tail := by
    rw [walkSteps]
    split
    · exact ⟨[.slash], Or.inr rfl, rfl⟩
    · exact ⟨[], Or.inl rfl, (List.append_nil _).symm⟩
  rw [hfolder] at hw
  rw [locate, hc, startOf, habs, ← startOf, hsteps]
  refine walkLinks_continues (fun _ at_ => ?_) (fun _ => hd) (by simp) (by simp) hend hw
  rcases htail with rfl | rfl <;> rfl

/-- What leads somewhere is at first the entry of its name, be it a link. -/
theorem lookup_lookAtLink_join {folder : Path} {entry found : Entry}
    (hl : tree.locate .look folder = .ok location) (hd : tree.find? location = some .directory)
    (hn : Path.IsName name) (he : tree.find? (name :: location) = some entry)
    (hfound : tree.lookup .look (folder.join ⟨name⟩) = .ok found) :
    tree.lookup .lookAtLink (folder.join ⟨name⟩) = .ok entry ∧
      (entry = .directory → found = .directory) := by
  obtain ⟨reached, hreached, hstands⟩ := lookup_eq_ok.mp hfound
  obtain ⟨u, hc, -⟩ := bind_eq_ok.mp hreached
  have hshort : ¬ maxName < byteLength name := by
    intro hlong
    have hend : ∀ onLink, walk tree .look onLink location [.name name] =
        .error .nameTooLong := fun onLink => by
      rw [walk, if_neg (by simp), if_pos hlong]
    cases hreached.symm.trans (locate_join hl hd hn hc hend)
  constructor
  · have hend : ∀ onLink, walk tree .lookAtLink onLink location [.name name] =
        .ok (name :: location) := fun onLink => by
      rw [walk, if_neg (by simp), if_neg hshort, he]
      cases entry <;> simp [walk]
    exact lookup_eq_ok.mpr ⟨_, locate_join hl hd hn hc hend, he⟩
  · rintro rfl
    have hend : ∀ onLink, walk tree .look onLink location [.name name] =
        .ok (name :: location) := fun onLink => by
      rw [walk, if_neg (by simp), if_neg hshort, he, walk]
    obtain rfl := Except.ok.inj (hreached.symm.trans (locate_join hl hd hn hc hend))
    exact Option.some.inj (hstands.symm.trans he)

theorem WellFormed.sought_below_iff (hw : tree.WellFormed) {folder p : Path} {extension : Text}
    (hd : tree.isDirectory folder) (hs : tree.Sought folder extension false p) :
    tree.Sought folder extension true p ↔
      ∀ target, tree.lookup .lookAtLink p ≠ .ok (.link target) := by
  obtain ⟨location, hl, name, content, hne, -, rfl, hlook, hext⟩ := hs
  obtain ⟨at_, hat, hdir⟩ := lookup_eq_ok.mp (isDirectory_iff.mp hd)
  obtain rfl := Except.ok.inj (hl.symm.trans hat)
  obtain ⟨entry, he⟩ := Option.ne_none_iff_exists'.mp hne
  have hn : Path.IsName name := hw.isName_of_find? he
  obtain ⟨hentry, hnot⟩ := lookup_lookAtLink_join hl hdir hn he hlook
  rw [hentry]
  constructor
  · rintro ⟨at_, hat, above, last, hdown, hp, -⟩ target hlink
    obtain rfl := Except.ok.inj (hl.symm.trans hat)
    have hnames : [name] = above ++ [last] :=
      Path.joinAll_inj (by simpa using hn) (hw.isName_of_down hdown) hp
    rw [← hnames] at hdown
    obtain ⟨-, content', hfile⟩ := hw.down_iff.mp hdown
    have hboth : some (Entry.file content') = some (.link target) :=
      hfile.symm.trans (he.trans (congrArg some (Except.ok.inj hlink)))
    cases hboth
  · intro hlink
    cases entry with
    | directory => cases hnot rfl
    | link target => exact absurd rfl (hlink target)
    | file content' => exact ⟨location, hl, [], name, .file he, rfl, hext⟩

/-- A search of everything below a folder finds what a search of the folder alone finds, the links
excepted. -/
theorem collectTargets_recursive (hw : tree.WellFormed) {folder : Path} {extension : Text}
    {targets : List Path} (hd : tree.isDirectory folder)
    (h : tree.collectTargets folder extension false = .ok targets) :
    (∀ p ∈ targets,
        (∃ found, tree.collectTargets folder extension true = .ok found ∧ p ∈ found) ↔
          ∀ target, tree.lookup .lookAtLink p ≠ .ok (.link target)) ∧
      ((∀ p ∈ targets, ∀ target, tree.lookup .lookAtLink p ≠ .ok (.link target)) →
        ∃ found, tree.collectTargets folder extension true = .ok found ∧
          ∀ p ∈ targets, p ∈ found) := by
  obtain ⟨hne, -, hmem⟩ := (hw.collectTargets_eq_ok_iff hd).mp h
  have hbelow : ∀ p ∈ targets, tree.Sought folder extension true p ↔
      ∀ target, tree.lookup .lookAtLink p ≠ .ok (.link target) :=
    fun p hp => hw.sought_below_iff hd ((hmem p).mp hp)
  rcases hw.collectTargets_cases hd extension true with
    ⟨found, hfound, -, -, hmem'⟩ | ⟨hnone, hmem'⟩
  · refine ⟨fun p hp => ?_, fun hlinks => ⟨found, hfound, fun p hp => ?_⟩⟩
    · rw [← hbelow p hp, ← hmem' p]
      constructor
      · rintro ⟨found', hfound', hp'⟩
        rwa [Except.ok.inj (hfound.symm.trans hfound')]
      · exact fun hp' => ⟨found, hfound, hp'⟩
    · exact (hmem' p).mpr ((hbelow p hp).mpr (hlinks p hp))
  · refine ⟨fun p hp => ⟨?_, fun hlink => ?_⟩, fun hlinks => ?_⟩
    · rintro ⟨found, hfound, -⟩
      cases hnone.symm.trans hfound
    · exact absurd ((hbelow p hp).mpr hlink) (hmem' p)
    · obtain ⟨p, hp⟩ := List.exists_mem_of_ne_nil targets hne
      exact absurd ((hbelow p hp).mpr (hlinks p hp)) (hmem' p)

/-- A script, a folder with a script and a link, and a folder with nothing but a link. -/
def linkTree : FileTree where
  entries := [(["main.py".toList], .ofText "x = 1".toList), (["mixed".toList], .directory),
    (["real.py".toList, "mixed".toList], .ofText "x = 2".toList),
    (["link.py".toList, "mixed".toList], .link ⟨"real.py".toList⟩),
    (["links".toList], .directory),
    (["link.py".toList, "links".toList], .link ⟨"../main.py".toList⟩)]
  here := []

theorem linkTree_scripts :
    (linkTree.collectTargets (.ofString ".") "py".toList false = .ok [.ofString "./main.py"] ∧
      ∃ found, linkTree.collectTargets (.ofString ".") "py".toList true = .ok found ∧
        ∀ p ∈ [Path.ofString "./main.py"], p ∈ found) ∧
      linkTree.collectTargets (.ofString "mixed") "py".toList false =
          .ok [.ofString "mixed/link.py", .ofString "mixed/real.py"] ∧
        ∃ found, linkTree.collectTargets (.ofString "mixed") "py".toList true = .ok found ∧
          .ofString "mixed/real.py" ∈ found := by
  have hw : linkTree.WellFormed := by decide +kernel
  have hd : linkTree.isDirectory (.ofString ".") := by decide +kernel
  have hd' : linkTree.isDirectory (.ofString "mixed") := by decide +kernel
  have h : linkTree.collectTargets (.ofString ".") "py".toList false =
      .ok [.ofString "./main.py"] := by
    decide +kernel
  have h' : linkTree.collectTargets (.ofString "mixed") "py".toList false =
      .ok [.ofString "mixed/link.py", .ofString "mixed/real.py"] := by
    decide +kernel
  have hmain : linkTree.lookup .lookAtLink (.ofString "./main.py") =
      .ok (.ofText "x = 1".toList) := by
    decide +kernel
  have hreal : linkTree.lookup .lookAtLink (.ofString "mixed/real.py") =
      .ok (.ofText "x = 2".toList) := by
    decide +kernel
  refine ⟨⟨h, (collectTargets_recursive hw hd h).2 ?_⟩, h',
    ((collectTargets_recursive hw hd' h').1 _ (by simp)).mpr fun target => ?_⟩
  · rw [List.forall_mem_singleton, hmain]
    simp [Entry.ofText]
  · rw [hreal]
    simp [Entry.ofText]

/-- A folder with nothing but a link to a script has a script to convert, until all that is below
the folder is asked for. -/
theorem linkTree_links :
    linkTree.collectTargets (.ofString "links") "py".toList false =
        .ok [.ofString "links/link.py"] ∧
      linkTree.collectTargets (.ofString "links") "py".toList true =
        .error (.noInputs (.ofString "links") "py".toList) := by
  decide +kernel

end ScriptNotebook.FileTree
