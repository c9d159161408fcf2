import ScriptNotebook.Proofs.TreeUpdates

/-!
Walks that go on.  A walk that has come to a directory, through links or not, goes on from there
with whatever follows in place of an idle end.  So a directory that has been made is where its path
then leads.
-/
namespace ScriptNotebook.FileTree

variable {tree made : FileTree} {p : Path} {purpose : Purpose} {location : Location}
  {result : Except SystemError Location} {tail more : List Step}

/-- Behind a name, an idle end does not tell whether a directory was met; without one, what was met
has to be known as a directory. -/
theorem walk_continues
    {onLink onLink' : Location → Path → List Step → Except SystemError Location}
    {steps : List Step} {at_ : Location}
    (htail : ∀ at_, walk tree .look onLink at_ tail = .ok at_)
    (hd : tail = [] → tree.find? location = some .directory)
    (hmore : more ≠ []) (hslash : more ≠ [.slash])
    (hend : walk tree purpose onLink' location more = result)
    (hon : ∀ at_ target rest, onLink at_ target (rest ++ tail) = .ok location →
      onLink' at_ target (rest ++ more) = result)
    (hw : walk tree .look onLink at_ (steps ++ tail) = .ok location) :
    walk tree purpose onLink' at_ (steps ++ more) = result := by
  induction steps generalizing at_ with
  | nil =>
    have hat : at_ = location := Except.ok.inj ((htail at_).symm.trans hw)
    rw [List.nil_append, hat, hend]
  | cons step rest ih =>
    cases step with
    | here => exact ih hw
    | up => exact ih hw
    | slash => exact ih hw
    | name t =>
      have hrest : rest ++ more ≠ [.slash] := by
        intro h
        rcases List.append_eq_singleton_iff.mp h with ⟨-, h⟩ | ⟨-, h⟩
        · exact hslash h
        · exact hmore h
      have hlong : ¬ maxName < byteLength t := by
        intro hl
        rw [List.cons_append, walk, if_neg (by simp), if_pos hl] at hw
        cases hw
      rw [List.cons_append, walk, if_neg (mt And.right hrest), if_neg hlong]
      rcases walk_name_cases hw with ⟨ht, hgo⟩ | ⟨target, ht, hgo⟩ | ⟨ht, hnil, rfl, -⟩
      · rw [ht]
        exact ih hgo
      · simp only [ht, List.append_ne_nil_of_right_ne_nil rest hmore, and_false, if_false]
        exact hon at_ target rest hgo
      · exact absurd (hd (List.append_eq_nil_iff.mp hnil).2) ht

theorem walkLinks_continues {links : Nat} {steps : List Step} {at_ : Location}
    (htail : ∀ onLink at_, walk tree .look onLink at_ tail = .ok at_)
    (hd : tail = [] → tree.find? location = some .directory)
    (hmore : more ≠ []) (hslash : more ≠ [.slash])
    (hend : ∀ onLink, walk tree purpose onLink location more = result)
    (hw : walkLinks tree .look links at_ (steps ++ tail) = .ok location) :
    walkLinks tree purpose links at_ (steps ++ more) = result := by
  induction links generalizing at_ steps with
  | zero =>
    rw [walkLinks] at hw ⊢
    refine walk_continues (htail _) hd hmore hslash (hend _) (fun _ _ _ h => ?_) hw
    cases h
  | succ links ih =>
    rw [walkLinks] at hw ⊢
    refine walk_continues (htail _) hd hmore hslash (hend _) (fun at_ target rest h => ?_) hw
    rw [← List.append_assoc] at h ⊢
    exact ih h

theorem exists_walkSteps {name : Text} (h : (pathSteps p).getLast? = some (.name name)) :
    ∃ more, (more = [.name name] ∨ more = [.name name, .slash]) ∧
      walkSteps p = (pathSteps p).dropLast ++ more := by
  have hsteps : pathSteps p = (pathSteps p).dropLast ++ [.name name] :=
    (List.dropLast_append_getLast? _ h).symm
  rw [walkSteps]
  split
  · refine ⟨[.name name, .slash], Or.inr rfl, ?_⟩
    rw [hsteps, List.dropLast_concat, List.append_assoc]
    rfl
  · exact ⟨[.name name], Or.inl rfl, hsteps⟩

theorem makeDirectory_ok (h : tree.makeDirectory p = .ok made) :
    ∃ name above, tree.find? (name :: above) = none ∧
      made = tree.set (name :: above) .directory ∧
      made.locate .look p = .ok (name :: above) := by
  obtain ⟨u, hc, -⟩ := bind_eq_ok.mp h
  obtain ⟨name, above, hlast, hfront, hshort, hnone, rfl⟩ := addEntry_ok h
  refine ⟨name, above, hnone, rfl, bind_eq_ok.mpr ⟨u, hc, ?_⟩⟩
  have hu : Updates (fun _ => False) tree (tree.set (name :: above) .directory) :=
    updates_set_directory hnone
  obtain ⟨more, hmore, hsteps⟩ := exists_walkSteps hlast
  have hend : ∀ onLink, walk (tree.set (name :: above) .directory) .look onLink above more =
      .ok (name :: above) := by
    intro onLink
    rcases hmore with rfl | rfl <;> simp [walk, Nat.not_lt.mpr hshort]
  have hne : more ≠ [] ∧ more ≠ [.slash] := by
    rcases hmore with rfl | rfl <;> simp
  have hwalk : walkLinks (tree.set (name :: above) .directory) .look maxLinks
      (startOf p tree.here) ((pathSteps p).dropLast ++ [.here]) = .ok above :=
    (hu.walkLinks_eq (by simp [hfront])).trans hfront
  rw [hsteps]
  exact walkLinks_continues (fun _ _ => rfl) (by simp) hne.1 hne.2 hend hwalk

end ScriptNotebook.FileTree
