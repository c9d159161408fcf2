import ScriptNotebook.Proofs.CollectedTargets

/-!
What is collected is found again.  In a tree without links the path of a collected script leads to
the script, unless a name on it or the whole of it is too long, or holds a null character.
-/
namespace ScriptNotebook

namespace Path

theorem exists_text_join (base : Path) {name : Text} (h : IsName name) :
    ∃ front, (base.join ⟨name⟩).text = front ++ name := by
  rw [join, isAbsolute_of_free (parts_fst_name h), if_neg Bool.false_ne_true]
  split
  · exact ⟨[], rfl⟩
  · exact ⟨base.text, rfl⟩
  · exact ⟨base.text ++ ['/'], by simp⟩

theorem text_join_ne_nil (base : Path) {name : Text} (h : IsName name) :
    (base.join ⟨name⟩).text ≠ [] := by
  obtain ⟨front, hf⟩ := exists_text_join base h
  rw [hf]
  exact List.append_ne_nil_of_right_ne_nil front h.1

theorem exists_join_of_joinAll (base : Path) {names : List Text} (hn : names ≠ [])
    (h : ∀ name ∈ names, IsName name) :
    ∃ (q : Path) (last : Text), IsName last ∧ base.joinAll names = q.join ⟨last⟩ := by
  obtain ⟨front, last, rfl⟩ := (List.eq_nil_or_concat names).resolve_left hn
  refine ⟨base.joinAll front, last, h last (by simp), ?_⟩
  rw [joinAll, List.concat_eq_append, List.foldl_append]
  rfl

theorem root_not_mem_counted (pieces : List Text) : Component.root ∉ counted pieces := by
  intro hm
  obtain ⟨piece, -, hp⟩ := List.mem_filterMap.mp hm
  rw [Component.ofPiece?] at hp
  split at hp
  · cases hp
  · split at hp <;> cases hp

theorem isAbsolute_iff (p : Path) : p.isAbsolute = true ↔ Component.root ∈ p.components := by
  have hc := root_not_mem_counted p.parts.2
  rw [isAbsolute, components, ← counted]
  cases p.parts.1 <;> simp [Anchor.components, hc]

theorem isAbsolute_joinAll {names : List Text} (h : ∀ name ∈ names, IsName name) (base : Path) :
    (base.joinAll names).isAbsolute = base.isAbsolute := by
  rw [Bool.eq_iff_iff, isAbsolute_iff, isAbsolute_iff, components_joinAll h]
  simp

end Path

namespace FileTree

theorem pathSteps_join {base : Path} (hb : base.text ≠ []) {name : Text} (h : Path.IsName name) :
    pathSteps (base.join ⟨name⟩) = pathSteps base ++ [.name name] := by
  obtain ⟨pieces, hj, -, hp⟩ := Path.cut_join hb (Path.isAbsolute_of_free (Path.parts_fst_name h))
  have hs : [name].filterMap Step.ofPiece? = [.name name] := by
    simp [Step.ofPiece?, h.1, h.2.2.1, h.2.2.2]
  rw [pathSteps, hj, Path.cut_name h, List.filterMap_append, hs, pathSteps]
  rcases hp with hp | hp <;> simp [hp, Step.ofPiece?]

theorem pathSteps_joinAll {base : Path} (hb : base.text ≠ []) {names : List Text}
    (h : ∀ name ∈ names, Path.IsName name) :
    pathSteps (base.joinAll names) = pathSteps base ++ names.map .name := by
  induction names generalizing base with
  | nil => simp [Path.joinAll]
  | cons name names ih =>
    have hn : Path.IsName name := h name List.mem_cons_self
    have hrest := ih (Path.text_join_ne_nil base hn) fun n hm => h n (List.mem_cons_of_mem name hm)
    rw [Path.joinAll, List.foldl_cons, ← Path.joinAll, hrest, pathSteps_join hb hn,
      List.append_assoc, List.map_cons, List.singleton_append]

theorem endsInSlash_join (base : Path) {name : Text} (h : Path.IsName name) :
    endsInSlash (base.join ⟨name⟩) = false := by
  have hne : name.getLast? ≠ some '/' := fun hl => h.2.1 (List.mem_of_getLast? hl)
  obtain ⟨front, hf⟩ := Path.exists_text_join base h
  rw [endsInSlash, hf, List.getLast?_append_of_ne_nil front h.1]
  simpa using hne

theorem walkSteps_joinAll {base : Path} (hb : base.text ≠ []) {names : List Text}
    (hn : names ≠ []) (h : ∀ name ∈ names, Path.IsName name) :
    walkSteps (base.joinAll names) = pathSteps base ++ names.map .name := by
  have hs : endsInSlash (base.joinAll names) = false := by
    obtain ⟨q, last, hlast, hq⟩ := Path.exists_join_of_joinAll base hn h
    rw [hq, endsInSlash_join q hlast]
  rw [walkSteps, hs, if_neg Bool.false_ne_true, pathSteps_joinAll hb h]

theorem checkPath_ne {p : Path} (h : p.text ≠ []) : checkPath p ≠ .error .noEntry := by
  rw [checkPath, if_neg h]
  split
  · decide
  · split <;> decide

theorem text_ne_nil_of_checkPath {p : Path} {u : Unit} (h : checkPath p = .ok u) :
    p.text ≠ [] := by
  intro hp
  rw [checkPath, hp] at h
  cases h

section

variable {tree : FileTree} {onLink : Location → Path → List Step → Except SystemError Location}

theorem walk_look_directory {t : Text} {at_ : Location} {rest : List Step}
    (hd : tree.find? (t :: at_) = some .directory) :
    walk tree .look onLink at_ (.name t :: rest) =
      if maxName < byteLength t then .error .nameTooLong
      else walk tree .look onLink (t :: at_) rest := by
  rw [walk, hd, if_neg (by simp)]

theorem walk_append (hf : tree.LinkFree) {steps more : List Step} {at_ location : Location}
    (hs : walk tree .look onLink at_ steps = .ok location)
    (hd : tree.find? location = some .directory) :
    walk tree .look onLink at_ (steps ++ more) = walk tree .look onLink location more := by
  induction steps generalizing at_ with
  | nil =>
    obtain rfl := Except.ok.inj hs
    rfl
  | cons step rest ih =>
    cases step with
    | here => exact ih hs
    | up => exact ih hs
    | slash => exact ih hs
    | name t =>
      rcases walk_name_ok hf hs with ⟨ht, hrest⟩ | ⟨ht, -, rfl⟩
      · rw [walk_look_directory ht] at hs
        rw [List.cons_append, walk_look_directory ht]
        split at hs
        · cases hs
        · next hl => rw [if_neg hl, ih hrest]
      · exact absurd hd ht

/-- A walk that goes nowhere at its end has come to where it is before. -/
theorem walk_of_append (hf : tree.LinkFree) {steps more : List Step} (hne : more ≠ [])
    (hmore : ∀ at_, walk tree .look onLink at_ more = .ok at_) {at_ location : Location}
    (hw : walk tree .look onLink at_ (steps ++ more) = .ok location) :
    walk tree .look onLink at_ steps = .ok location := by
  induction steps generalizing at_ with
  | nil =>
    rw [List.nil_append, hmore at_] at hw
    exact hw
  | cons step rest ih =>
    cases step with
    | here => exact ih hw
    | up => exact ih hw
    | slash => exact ih hw
    | name t =>
      rw [List.cons_append] at hw
      rcases walk_name_ok hf hw with ⟨ht, hrest⟩ | ⟨-, hr, -⟩
      · rw [walk_look_directory ht] at hw ⊢
        split at hw
        · cases hw
        · next hl => rw [if_neg hl, ih hrest]
      · exact absurd hr (List.append_ne_nil_of_right_ne_nil rest hne)

theorem walk_pathSteps (hf : tree.LinkFree) {p : Path} {at_ location : Location}
    (hw : walk tree .look onLink at_ (walkSteps p) = .ok location) :
    walk tree .look onLink at_ (pathSteps p) = .ok location := by
  rw [walkSteps] at hw
  split at hw
  · exact walk_of_append hf (List.cons_ne_nil _ _) (fun _ => rfl) hw
  · exact hw

/-- A walk along the names of an entry comes to it or stops at a name that is too long. -/
theorem walk_names (hf : tree.LinkFree) (hw : tree.WellFormed) {names : List Text}
    {location : Location} (hs : tree.find? (names.reverse ++ location) ≠ none) :
    walk tree .look onLink location (names.map .name) = .ok (names.reverse ++ location) ∨
      walk tree .look onLink location (names.map .name) = .error .nameTooLong := by
  induction names generalizing location with
  | nil => exact Or.inl rfl
  | cons name names ih =>
    rw [List.reverse_cons, List.append_assoc, List.singleton_append] at hs ⊢
    rw [List.map_cons, walk, if_neg (by simp)]
    by_cases hl : maxName < byteLength name
    · exact Or.inr (if_pos hl)
    · rw [if_neg hl]
      by_cases hn : names = []
      · subst hn
        cases he : tree.find? (name :: location) with
        | none => exact absurd he hs
        | some entry =>
          cases entry with
          | directory => exact Or.inl rfl
          | link target => exact absurd he (hf _ target)
          | file content => exact Or.inl rfl
      · -- More names follow, so that this one names a directory.
        rw [hw.find?_above (List.reverse_ne_nil_iff.mpr hn) hs]
        exact ih hs

end

theorem ScriptUnder.lookup_ne {tree : FileTree} (hf : tree.LinkFree) (hw : tree.WellFormed)
    {folder p : Path} {extension : Text} {names : List Text}
    (h : tree.ScriptUnder folder extension names p) :
    tree.lookup .look p ≠ .error .noEntry := by
  obtain ⟨location, hl, hs⟩ := h.stands
  obtain ⟨u, hc, hwalk⟩ := bind_eq_ok.mp hl
  have hb : folder.text ≠ [] := text_ne_nil_of_checkPath hc
  have hd : tree.find? location = some .directory :=
    hw.find?_above (List.reverse_ne_nil_iff.mpr h.nonempty) hs
  have hstart : startOf p tree.here = startOf folder tree.here := by
    rw [startOf, h.path, Path.isAbsolute_joinAll h.allNames, startOf]
  have hp : p.text ≠ [] := by
    obtain ⟨q, last, hlast, hq⟩ := Path.exists_join_of_joinAll folder h.nonempty h.allNames
    rw [h.path, hq]
    exact Path.text_join_ne_nil q hlast
  rw [lookup, locate]
  cases hcp : checkPath p with
  | error e =>
    have he : e ≠ .noEntry := fun he => checkPath_ne hp (by rw [hcp, he])
    simpa [bind, Except.bind] using he
  | ok u =>
    have hlinks : walkLinks tree .look maxLinks (startOf p tree.here) (walkSteps p) =
        .ok (names.reverse ++ location) ∨
        walkLinks tree .look maxLinks (startOf p tree.here) (walkSteps p) =
          .error .nameTooLong := by
      rw [maxLinks, walkLinks] at hwalk ⊢
      rw [hstart, h.path, walkSteps_joinAll hb h.nonempty h.allNames,
        walk_append hf (walk_pathSteps hf hwalk) hd]
      exact walk_names hf hw hs
    rcases hlinks with hlinks | hlinks
    · obtain ⟨entry, he⟩ := Option.ne_none_iff_exists'.mp hs
      simp [hlinks, he, bind, Except.bind]
    · simp only [hlinks, bind, Except.bind]
      decide

end FileTree

end ScriptNotebook
