import ScriptNotebook.Proofs.WellFormedTrees
import ScriptNotebook.FileTree.Operations

/-!
What writing files and making directories can change in a tree.  Directories and links stay, files
stay files and keep their contents outside the written locations, and what appears is a directory
or a written file.  A path that led somewhere before then leads there afterwards.
-/
namespace ScriptNotebook.FileTree

structure Updates (written : Location → Prop) (before after : FileTree) : Prop where
  here : after.here = before.here
  directory : ∀ location, before.find? location = some .directory →
    after.find? location = some .directory
  link : ∀ location target, before.find? location = some (.link target) →
    after.find? location = some (.link target)
  file : ∀ location content, before.find? location = some (.file content) →
    ∃ content', after.find? location = some (.file content') ∧
      (¬ written location → content' = content)
  fresh : ∀ location, before.find? location = none →
    after.find? location = none ∨ after.find? location = some .directory ∨
      (written location ∧ ∃ content, after.find? location = some (.file content))

variable {written written' : Location → Prop} {before middle after : FileTree}

namespace Updates

theorem refl (tree : FileTree) : Updates written tree tree where
  here := rfl
  directory _ h := h
  link _ _ h := h
  file _ content h := ⟨content, h, fun _ => rfl⟩
  fresh _ h := Or.inl h

theorem mono (h : Updates written before after) (hw : ∀ location, written location →
    written' location) : Updates written' before after where
  here := h.here
  directory := h.directory
  link := h.link
  file location content hf := by
    obtain ⟨content', hf', hc⟩ := h.file location content hf
    exact ⟨content', hf', fun hn => hc fun hl => hn (hw location hl)⟩
  fresh location hn := by
    rcases h.fresh location hn with h | h | ⟨hl, hf⟩
    · exact Or.inl h
    · exact Or.inr (Or.inl h)
    · exact Or.inr (Or.inr ⟨hw location hl, hf⟩)

theorem trans (h : Updates written before middle) (h' : Updates written middle after) :
    Updates written before after where
  here := h'.here.trans h.here
  directory location hd := h'.directory location (h.directory location hd)
  link location target hl := h'.link location target (h.link location target hl)
  file location content hf := by
    obtain ⟨content₁, hf₁, hc₁⟩ := h.file location content hf
    obtain ⟨content₂, hf₂, hc₂⟩ := h'.file location content₁ hf₁
    exact ⟨content₂, hf₂, fun hn => (hc₂ hn).trans (hc₁ hn)⟩
  fresh location hn := by
    rcases h.fresh location hn with hn | hd | ⟨hw, content, hf⟩
    · exact h'.fresh location hn
    · exact Or.inr (Or.inl (h'.directory location hd))
    · obtain ⟨content', hf', -⟩ := h'.file location content hf
      exact Or.inr (Or.inr ⟨hw, content', hf'⟩)

theorem link_of_after (h : Updates written before after) {location : Location} {target : Path}
    (hl : after.find? location = some (.link target)) :
    before.find? location = some (.link target) := by
  cases hb : before.find? location with
  | none =>
    rcases h.fresh location hb with hn | hd | ⟨-, content, hc⟩ <;> simp_all
  | some entry =>
    cases entry with
    | directory => simp [h.directory location hb] at hl
    | link target' => rwa [h.link location target' hb] at hl
    | file content =>
      obtain ⟨content', hc, -⟩ := h.file location content hb
      simp [hc] at hl

theorem linkFree (h : Updates written before after) (hf : before.LinkFree) : after.LinkFree :=
  fun location target hl => hf location target (h.link_of_after hl)

theorem file_of_after (h : Updates written before after) {location : Location}
    {content : ByteArray} (hf : after.find? location = some (.file content)) :
    written location ∨ before.find? location = some (.file content) := by
  cases hb : before.find? location with
  | none =>
    rcases h.fresh location hb with hn | hd | ⟨hw, -⟩
    · simp [hn] at hf
    · simp [hd] at hf
    · exact Or.inl hw
  | some entry =>
    cases entry with
    | directory => simp [h.directory location hb] at hf
    | link target => simp [h.link location target hb] at hf
    | file content' =>
      obtain ⟨content'', hf', hc⟩ := h.file location content' hb
      by_cases hw : written location
      · exact Or.inl hw
      · rw [hf', hc hw] at hf
        exact Or.inr hf

theorem find?_isSome (h : Updates written before after) {location : Location}
    (hs : (before.find? location).isSome) : (after.find? location).isSome := by
  cases hl : after.find? location with
  | some entry => rfl
  | none =>
    cases ht : before.find? location with
    | none => simp [ht] at hs
    | some entry =>
      cases entry with
      | directory => simp [h.directory location ht] at hl
      | link target => simp [h.link location target ht] at hl
      | file content =>
        obtain ⟨content', hc, -⟩ := h.file location content ht
        simp [hc] at hl

theorem walk_eq (h : Updates written before after) {purpose : Purpose}
    {onLink onLink' : Location → Path → List Step → Except SystemError Location}
    (ho : ∀ at_ target rest, onLink at_ target rest ≠ .error .noEntry →
      onLink' at_ target rest = onLink at_ target rest) {steps : List Step} {at_ : Location}
    (hw : walk before purpose onLink at_ steps ≠ .error .noEntry) :
    walk after purpose onLink' at_ steps = walk before purpose onLink at_ steps := by
  induction steps generalizing at_ with
  | nil => rfl
  | cons step rest ih =>
    cases step with
    | here => exact ih hw
    | up => exact ih hw
    | slash => exact ih hw
    | name t =>
      rw [walk] at hw ⊢
      rw [walk]
      by_cases hp : purpose = .create ∧ rest = [.slash]
      · rw [if_pos hp, if_pos hp]
      rw [if_neg hp] at hw ⊢
      rw [if_neg hp]
      by_cases hl : maxName < byteLength t
      · rw [if_pos hl, if_pos hl]
      rw [if_neg hl] at hw ⊢
      rw [if_neg hl]
      cases hb : before.find? (t :: at_) with
      | some entry =>
        cases entry with
        | directory =>
          rw [hb] at hw
          rw [h.directory _ hb]
          exact ih hw
        | link target =>
          rw [hb] at hw
          rw [h.link _ target hb]
          dsimp only at hw ⊢
          split
          · rfl
          · next hs =>
            rw [if_neg hs] at hw
            exact ho _ _ _ hw
        | file content =>
          obtain ⟨content', hf, -⟩ := h.file _ content hb
          rw [hf]
      | none =>
        -- What is missing can only be the last thing on the way, and whatever comes there ends it.
        have hr : rest = [] := by
          by_contra hr
          simp [hb, hr] at hw
        subst hr
        rcases h.fresh _ hb with hn | hd | ⟨-, content, hf⟩
        · rw [hn]
        · rw [hd]
          rfl
        · rw [hf]
          rfl

theorem walkLinks_eq (h : Updates written before after) {purpose : Purpose} {links : Nat}
    {steps : List Step} {at_ : Location}
    (hw : walkLinks before purpose links at_ steps ≠ .error .noEntry) :
    walkLinks after purpose links at_ steps = walkLinks before purpose links at_ steps := by
  induction links generalizing at_ steps with
  | zero => exact h.walk_eq (fun _ _ _ _ => rfl) hw
  | succ links ih => exact h.walk_eq (fun _ _ _ hr => ih hr) hw

theorem locate_eq (h : Updates written before after) {purpose : Purpose} {p : Path}
    (hl : before.locate purpose p ≠ .error .noEntry) :
    after.locate purpose p = before.locate purpose p := by
  rw [locate] at hl ⊢
  rw [locate, h.here]
  cases hc : checkPath p with
  | error e => simp only [bind, Except.bind]
  | ok u =>
    simp only [hc, bind, Except.bind] at hl ⊢
    exact h.walkLinks_eq hl

theorem locate_ok (h : Updates written before after) {purpose : Purpose} {p : Path}
    {location : Location} (hl : before.locate purpose p = .ok location) :
    after.locate purpose p = .ok location := by
  rw [h.locate_eq (by simp [hl]), hl]

theorem isDirectory (h : Updates written before after) {p : Path} (hd : before.isDirectory p) :
    after.isDirectory p := by
  cases hl : before.locate .look p with
  | error e => simp [FileTree.isDirectory, lookup, hl, bind, Except.bind] at hd
  | ok location =>
    have hb : before.find? location = some .directory := by
      simp only [FileTree.isDirectory, lookup, hl, bind, Except.bind] at hd
      cases hb : before.find? location with
      | none => simp [hb] at hd
      | some entry => cases entry <;> simp_all
    simp [FileTree.isDirectory, lookup, h.locate_ok hl, h.directory _ hb, bind, Except.bind]

theorem lookup_ne (h : Updates written before after) {p : Path}
    (hp : before.lookup .look p ≠ .error .noEntry) : after.lookup .look p ≠ .error .noEntry := by
  cases hl : before.locate .look p with
  | error e =>
    have he : e ≠ .noEntry := by
      rintro rfl
      exact hp (by rw [lookup, hl]; rfl)
    rw [lookup, h.locate_eq (by simpa [hl] using he), hl]
    simpa [bind, Except.bind] using he
  | ok location =>
    cases hb : before.find? location with
    | none => simp [lookup, hl, hb, bind, Except.bind] at hp
    | some entry =>
      have hs : (before.find? location).isSome := by simp [hb]
      obtain ⟨entry', he⟩ := Option.isSome_iff_exists.mp (h.find?_isSome hs)
      simp [lookup, h.locate_ok hl, he, bind, Except.bind]

/-- What a path leads to reads as before, unless it was written. -/
theorem readBytes_eq (h : Updates written before after) {p : Path}
    (hp : before.lookup .look p ≠ .error .noEntry)
    (hw : ∀ location, before.locate .look p = .ok location → ¬ written location) :
    after.readBytes p = before.readBytes p := by
  cases hl : before.locate .look p with
  | error e =>
    have he : before.locate .look p ≠ .error .noEntry := by
      intro hn
      simp [lookup, hn, bind, Except.bind] at hp
    simp [readBytes, lookup, h.locate_eq he, hl, bind, Except.bind]
  | ok location =>
    simp only [readBytes, lookup, h.locate_ok hl, hl, bind, Except.bind] at hp ⊢
    cases hb : before.find? location with
    | none => simp [hb] at hp
    | some entry =>
      cases entry with
      | directory => rw [h.directory _ hb]
      | link target => rw [h.link _ target hb]
      | file content =>
        obtain ⟨content', hf, hc⟩ := h.file _ content hb
        rw [hf, hc (hw location hl)]

end Updates

def SameFiles (before after : FileTree) : Prop :=
  ∀ location content,
    after.find? location = some (.file content) ↔ before.find? location = some (.file content)

theorem Updates.sameFiles (h : Updates (fun _ => False) before after) :
    before.SameFiles after := by
  intro location content
  constructor
  · intro hf
    exact (h.file_of_after hf).resolve_left id
  · intro hf
    obtain ⟨content', hf', hc⟩ := h.file location content hf
    rw [hf', hc id]

def SameLinks (before after : FileTree) : Prop :=
  ∀ location target,
    after.find? location = some (.link target) ↔ before.find? location = some (.link target)

theorem Updates.sameLinks (h : Updates written before after) : before.SameLinks after :=
  fun location target => ⟨h.link_of_after, h.link location target⟩

theorem exists_cons_of_find? {tree : FileTree} {location : Location}
    (h : tree.find? location ≠ some .directory) : ∃ name above, location = name :: above := by
  cases location with
  | nil => exact absurd rfl h
  | cons name above => exact ⟨name, above, rfl⟩

theorem updates_set_directory {tree : FileTree} {name : Text} {above : Location}
    (h : tree.find? (name :: above) = none) :
    Updates written tree (tree.set (name :: above) .directory) where
  here := rfl
  directory location hd := by
    rw [find?_set]
    split <;> simp [hd]
  link location target hl := by
    have hne : location ≠ name :: above := by
      rintro rfl
      simp [h] at hl
    rw [find?_set, if_neg hne, hl]
  file location content hf := by
    have hne : location ≠ name :: above := by
      rintro rfl
      simp [h] at hf
    exact ⟨content, by rw [find?_set, if_neg hne, hf], fun _ => rfl⟩
  fresh location hn := by
    rw [find?_set]
    split <;> simp [hn]

theorem updates_set_file {tree : FileTree} {location : Location}
    (hl : ∀ target, tree.find? location ≠ some (.link target)) (hw : written location)
    (hd : tree.find? location ≠ some .directory) (content : ByteArray) :
    Updates written tree (tree.set location (.file content)) := by
  obtain ⟨name, above, rfl⟩ := exists_cons_of_find? hd
  refine ⟨rfl, ?_, ?_, ?_, ?_⟩
  · intro other ho
    have hne : other ≠ name :: above := by
      rintro rfl
      exact hd ho
    rw [find?_set, if_neg hne, ho]
  · intro other target ho
    have hne : other ≠ name :: above := by
      rintro rfl
      exact hl target ho
    rw [find?_set, if_neg hne, ho]
  · intro other content' ho
    by_cases he : other = name :: above
    · exact ⟨content, by rw [find?_set, if_pos he], fun hn => absurd (he ▸ hw) hn⟩
    · exact ⟨content', by rw [find?_set, if_neg he, ho], fun _ => rfl⟩
  · intro other ho
    by_cases he : other = name :: above
    · exact Or.inr (Or.inr ⟨he ▸ hw, content, by rw [find?_set, if_pos he]⟩)
    · exact Or.inl (by rw [find?_set, if_neg he, ho])

/-- A new entry takes a free name, in the directory that the path leads to without its last step. -/
theorem addEntry_ok {tree : FileTree} {p : Path} {entry : Entry}
    (h : tree.addEntry p entry = .ok after) :
    ∃ name above, (pathSteps p).getLast? = some (.name name) ∧
      walkLinks tree .look maxLinks (startOf p tree.here) ((pathSteps p).dropLast ++ [.here]) =
        .ok above ∧
      byteLength name ≤ maxName ∧ tree.find? (name :: above) = none ∧
      after = tree.set (name :: above) entry := by
  obtain ⟨-, -, h⟩ := bind_eq_ok.mp h
  obtain ⟨above, ha, h⟩ := bind_eq_ok.mp h
  split at h
  · next name hs =>
    split at h
    · cases h
    · next hl =>
      split at h
      · cases h
      · next hn =>
        have hnone : tree.find? (name :: above) = none := by simpa using hn
        exact ⟨name, above, hs, ha, Nat.le_of_not_lt hl, hnone, (Except.ok.inj h).symm⟩
  · cases h

theorem WellFormed.addEntry {tree : FileTree} (hw : tree.WellFormed) {p : Path} {entry : Entry}
    (h : tree.addEntry p entry = .ok after) : after.WellFormed := by
  obtain ⟨name, above, hs, ha, -, hn, rfl⟩ := addEntry_ok h
  have hd : tree.find? above = some .directory := walkLinks_here hw (find?_startOf p hw.here) ha
  refine hw.set ⟨hd, fun n hm => ?_⟩ (by simp [hn]) entry
  obtain rfl := Option.some.inj hm
  exact isName_of_mem_pathSteps (List.mem_of_getLast? hs)

theorem makeDirectory_updates {tree : FileTree} {p : Path}
    (h : tree.makeDirectory p = .ok after) : Updates written tree after := by
  obtain ⟨name, above, -, -, -, hn, rfl⟩ := addEntry_ok h
  exact updates_set_directory hn

/-- What making one of the paths a directory preserves, making all that are missing preserves. -/
theorem makeDirectoriesOf_preserves {good : FileTree → Prop} {paths : List Path}
    (step : ∀ tree, ∀ p ∈ paths, ∀ made, good tree → tree.makeDirectory p = .ok made → good made)
    {tree : FileTree} (h : good tree) : good (tree.makeDirectoriesOf paths).1 := by
  induction paths with
  | nil => exact h
  | cons p above ih =>
    have hstep := fun tree => step tree p List.mem_cons_self
    have ih := ih fun tree q hq => step tree q (List.mem_cons_of_mem p hq)
    rw [makeDirectoriesOf]
    split
    · exact h
    · cases hm : tree.makeDirectory p with
      | ok made => exact hstep tree made h hm
      | error e =>
        dsimp only
        split
        · cases hr : tree.makeDirectoriesOf above with
          | mk tree' result =>
            rw [hr] at ih
            cases result with
            | error e => exact ih
            | ok u =>
              cases hm' : tree'.makeDirectory p with
              | ok made => simpa only [hm'] using hstep tree' made ih hm'
              | error e => simpa only [hm'] using ih
        · exact h

theorem makeDirectoriesOf_updates (tree : FileTree) (paths : List Path) :
    Updates written tree (tree.makeDirectoriesOf paths).1 :=
  makeDirectoriesOf_preserves (fun _ _ _ _ h hm => h.trans (makeDirectory_updates hm))
    (Updates.refl tree)

theorem makeDirectories_updates (tree : FileTree) (p : Path) :
    Updates written tree (tree.makeDirectories p).1 :=
  makeDirectoriesOf_updates tree _

theorem updates_of_makeDirectories {tree : FileTree} {p : Path} {result : Except SystemError Unit}
    (h : tree.makeDirectories p = (after, result)) : Updates written tree after := by
  obtain rfl : (tree.makeDirectories p).1 = after := by rw [h]
  exact makeDirectories_updates tree p

theorem WellFormed.makeDirectoriesOf {tree : FileTree} (hw : tree.WellFormed)
    (paths : List Path) : (tree.makeDirectoriesOf paths).1.WellFormed :=
  makeDirectoriesOf_preserves (fun _ _ _ _ (hw : WellFormed _) hm => hw.addEntry hm) hw

theorem WellFormed.makeDirectories {tree : FileTree} (hw : tree.WellFormed) (p : Path) :
    (tree.makeDirectories p).1.WellFormed :=
  hw.makeDirectoriesOf _

theorem writeBytes_ok {tree : FileTree} {p : Path} {content : ByteArray}
    (h : tree.writeBytes p content = .ok after) :
    ∃ location, tree.locate .create p = .ok location ∧
      tree.find? location ≠ some .directory ∧ after = tree.set location (.file content) := by
  obtain ⟨location, hl, h⟩ := bind_eq_ok.mp h
  split at h
  · cases h
  · next hd => exact ⟨location, hl, hd, (Except.ok.inj h).symm⟩

/-- A walk to make a file leads where a walk to look leads. -/
theorem walk_look_of_create {tree : FileTree}
    {onLink onLink' : Location → Path → List Step → Except SystemError Location}
    (ho : ∀ at_ target rest location, onLink at_ target rest = .ok location →
      onLink' at_ target rest = .ok location) {steps : List Step} {at_ location : Location}
    (hw : walk tree .create onLink at_ steps = .ok location) :
    walk tree .look onLink' at_ steps = .ok location := by
  induction steps generalizing at_ with
  | nil => exact hw
  | cons step rest ih =>
    cases step with
    | here => exact ih hw
    | up => exact ih hw
    | slash => exact ih hw
    | name t =>
      rw [walk] at hw ⊢
      rw [if_neg (by simp)]
      split at hw
      · cases hw
      · split at hw
        · cases hw
        · next hl =>
          rw [if_neg hl]
          cases hf : tree.find? (t :: at_) with
          | none => simpa [hf] using hw
          | some entry =>
            cases entry with
            | directory => exact ih (by simpa [hf] using hw)
            | link target => exact ho _ _ _ _ (by simpa [hf] using hw)
            | file content => simpa [hf] using hw

theorem walkLinks_look_of_create {tree : FileTree} {links : Nat} {steps : List Step}
    {at_ location : Location} (hw : walkLinks tree .create links at_ steps = .ok location) :
    walkLinks tree .look links at_ steps = .ok location := by
  induction links generalizing at_ steps location with
  | zero => exact walk_look_of_create (fun _ _ _ _ h => h) hw
  | succ links ih => exact walk_look_of_create (fun _ _ _ _ h => ih h) hw

theorem locate_look_of_create {tree : FileTree} {p : Path} {location : Location}
    (hl : tree.locate .create p = .ok location) : tree.locate .look p = .ok location := by
  obtain ⟨u, hc, hw⟩ := bind_eq_ok.mp hl
  exact bind_eq_ok.mpr ⟨u, hc, walkLinks_look_of_create hw⟩

theorem WellFormed.writeBytes {tree : FileTree} (hw : tree.WellFormed) {p : Path}
    {content : ByteArray} (h : tree.writeBytes p content = .ok after) : after.WellFormed := by
  obtain ⟨location, hl, hd, rfl⟩ := writeBytes_ok h
  obtain ⟨name, above, rfl⟩ := exists_cons_of_find? hd
  exact hw.set (locate_reached hw hl).1 hd _

/-- Writing changes the tree where the path then leads, and nowhere else. -/
theorem writeBytes_updates {tree : FileTree} (hw : tree.WellFormed) {p : Path}
    {content : ByteArray} (h : tree.writeBytes p content = .ok after) :
    Updates (fun location => after.locate .look p = .ok location) tree after ∧
      after.lookup .look p = .ok (.file content) := by
  obtain ⟨location, hl, hd, rfl⟩ := writeBytes_ok h
  have hnl : ∀ target, tree.find? location ≠ some (.link target) :=
    (locate_reached hw hl).2 (by decide)
  have hset : Updates (Eq location) tree (tree.set location (.file content)) :=
    updates_set_file hnl rfl hd content
  have hlook : (tree.set location (.file content)).locate .look p = .ok location :=
    hset.locate_ok (locate_look_of_create hl)
  -- The written location is told by where the path leads afterwards, which later steps keep.
  refine ⟨updates_set_file hnl hlook hd content, ?_⟩
  obtain ⟨name, above, rfl⟩ := exists_cons_of_find? hd
  simp [lookup, hlook, bind, Except.bind]

end ScriptNotebook.FileTree
