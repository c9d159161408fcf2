import ScriptNotebook.Proofs.FoundScripts
import ScriptNotebook.Proofs.TreeUpdates

/-!
Walks into directories in a tree without links.  Where a path leads when something follows it
depends on its components alone: dots and slashes between them do not count, and what follows the
path is walked from the directory that the components lead to.
-/
namespace ScriptNotebook

/-- The step of a component, if it is one to take. -/
def Path.Component.step? : Path.Component → Option FileTree.Step
  | root | here => none
  | up => some .up
  | name n => some (.name n)

namespace FileTree

def Step.counts : Step → Bool
  | here => false
  | _ => true

def countedSteps (p : Path) : List Step := p.components.filterMap Path.Component.step?

theorem filter_counts_ofPiece? (pieces : List Text) :
    (pieces.filterMap Step.ofPiece?).filter Step.counts =
      (Path.counted pieces).filterMap Path.Component.step? := by
  induction pieces with
  | nil => rfl
  | cons piece pieces ih =>
    rw [Path.counted] at ih ⊢
    by_cases h0 : piece = []
    · simp [Step.ofPiece?, Path.Component.ofPiece?, Path.isIdle, h0, ih]
    · by_cases h1 : piece = ['.']
      · simp [Step.ofPiece?, Path.Component.ofPiece?, Path.isIdle, h1, ih, Step.counts]
      · by_cases h2 : piece = ['.', '.'] <;>
          simp [Step.ofPiece?, Path.Component.ofPiece?, Path.isIdle, h0, h1, h2, ih,
            List.filter_cons, Step.counts, Path.Component.step?]

theorem filter_counts_pathSteps (p : Path) : (pathSteps p).filter Step.counts = countedSteps p := by
  have hanchor : (Path.anchorOf (Text.cut '/' p.text)).components.filterMap
      Path.Component.step? = [] := by
    cases Path.anchorOf (Text.cut '/' p.text) <;> rfl
  rw [pathSteps, filter_counts_ofPiece?, countedSteps, Path.components_eq, List.filterMap_append,
    hanchor, List.nil_append]

/-- Paths begin at one place if both have the root among their components or neither has. -/
theorem startOf_congr {p q : Path} (h : Path.Component.root ∈ p.components ↔
    Path.Component.root ∈ q.components) (here : Location) : startOf p here = startOf q here := by
  rw [← Path.isAbsolute_iff, ← Path.isAbsolute_iff, ← Bool.eq_iff_iff] at h
  rw [startOf, startOf, h]

variable {tree : FileTree} {purpose : Purpose} {p q : Path} {name : Text}

/-- Links do not come up. -/
def noLink : Location → Path → List Step → Except SystemError Location :=
  fun _ _ _ => .error .tooManyLinks

theorem walk_noLink (hf : tree.LinkFree)
    {onLink : Location → Path → List Step → Except SystemError Location} {steps : List Step}
    {at_ : Location} : walk tree purpose onLink at_ steps = walk tree purpose noLink at_ steps := by
  induction steps generalizing at_ with
  | nil => rfl
  | cons step rest ih =>
    cases step with
    | here => exact ih
    | up => exact ih
    | slash => exact ih
    | name t =>
      rw [walk, walk]
      cases he : tree.find? (t :: at_) with
      | none => rfl
      | some entry =>
        cases entry with
        | directory => rw [ih]
        | link target => exact absurd he (hf _ target)
        | file content => rfl

theorem walkLinks_noLink (hf : tree.LinkFree) {links : Nat} {steps : List Step} {at_ : Location} :
    walkLinks tree purpose links at_ steps = walk tree purpose noLink at_ steps := by
  cases links <;> exact walk_noLink hf

/-- The directory of a name in another one. -/
def into (tree : FileTree) (at_ : Location) (name : Text) : Except SystemError Location :=
  if maxName < byteLength name then .error .nameTooLong
  else
    match tree.find? (name :: at_) with
    | some .directory => .ok (name :: at_)
    | some _ => .error .notDirectory
    | none => .error .noEntry

theorem into_eq_ok {at_ location : Location} :
    tree.into at_ name = .ok location ↔
      byteLength name ≤ maxName ∧ location = name :: at_ ∧
        tree.find? (name :: at_) = some .directory := by
  have hcomm : name :: at_ = location ↔ location = name :: at_ := eq_comm
  rw [into, ← Nat.not_lt]
  split
  · simp_all
  · split <;> simp_all

theorem into_eq_notDirectory {at_ : Location} :
    tree.into at_ name = .error .notDirectory ↔
      byteLength name ≤ maxName ∧
        ∃ entry, tree.find? (name :: at_) = some entry ∧ entry ≠ .directory := by
  rw [into, ← Nat.not_lt]
  split
  · simp_all [SystemError.nameTooLong, SystemError.notDirectory]
  · split <;> simp_all [SystemError.noEntry, SystemError.notDirectory]

theorem walk_name_eq (hf : tree.LinkFree) {rest : List Step} (hrest : rest ≠ [])
    (hslash : purpose = .create → rest ≠ [.slash]) {at_ : Location} :
    walk tree purpose noLink at_ (.name name :: rest) =
      tree.into at_ name >>= fun reached => walk tree purpose noLink reached rest := by
  have hfirst : ¬ (purpose = .create ∧ rest = [.slash]) := fun h => hslash h.1 h.2
  rw [walk, if_neg hfirst, into]
  by_cases hl : maxName < byteLength name
  · rw [if_pos hl, if_pos hl]
    rfl
  · rw [if_neg hl, if_neg hl]
    cases he : tree.find? (name :: at_) with
    | none => exact if_neg hrest
    | some entry =>
      cases entry with
      | directory => rfl
      | link target => exact absurd he (hf _ target)
      | file content => exact if_neg hrest

theorem walk_append_eq (hf : tree.LinkFree) {more : List Step} (hmore : more ≠ [])
    (hslash : purpose = .create → more ≠ [.slash]) {steps : List Step} {at_ : Location} :
    walk tree purpose noLink at_ (steps ++ more) =
      walk tree .look noLink at_ (steps.filter Step.counts ++ [.here]) >>= fun reached =>
        walk tree purpose noLink reached more := by
  induction steps generalizing at_ with
  | nil => rfl
  | cons step rest ih =>
    cases step with
    | here => exact ih
    | up => exact ih
    | slash => exact ih
    | name t =>
      have hslash' : purpose = .create → rest ++ more ≠ [.slash] := by
        intro hp hs
        rcases List.append_eq_singleton_iff.mp hs with ⟨-, hs⟩ | ⟨-, hs⟩
        · exact hslash hp hs
        · exact hmore hs
      rw [List.cons_append, walk_name_eq hf (List.append_ne_nil_of_right_ne_nil rest hmore) hslash',
        List.filter_cons_of_pos rfl, List.cons_append, walk_name_eq hf (by simp) (by simp),
        bind_assoc]
      exact congrArg _ (funext fun reached => ih)

/-- The directory that the components of a path lead to. -/
def enter (tree : FileTree) (p : Path) : Except SystemError Location :=
  walk tree .look noLink (startOf p tree.here) (countedSteps p ++ [.here])

theorem walkLinks_append_eq (hf : tree.LinkFree) {more : List Step} (hmore : more ≠ [])
    (hslash : purpose = .create → more ≠ [.slash]) {links : Nat} {steps : List Step}
    (hsteps : steps.filter Step.counts = countedSteps p) :
    walkLinks tree purpose links (startOf p tree.here) (steps ++ more) =
      tree.enter p >>= fun reached => walk tree purpose noLink reached more := by
  rw [walkLinks_noLink hf, walk_append_eq hf hmore hslash, hsteps, enter]

theorem enter_congr (h : p.components = q.components) : tree.enter p = tree.enter q := by
  have hstart : startOf p tree.here = startOf q tree.here := startOf_congr (by rw [h]) tree.here
  rw [enter, enter, hstart, countedSteps, countedSteps, h]

theorem enter_of_components (hf : tree.LinkFree)
    (h : p.components = q.components ++ [.name name]) :
    tree.enter p = tree.enter q >>= fun reached => tree.into reached name := by
  have hsteps : countedSteps p = countedSteps q ++ [.name name] := by
    rw [countedSteps, h, List.filterMap_append]
    rfl
  have hself : (countedSteps q).filter Step.counts = countedSteps q := by
    rw [← filter_counts_pathSteps, List.filter_filter]
    simp
  have hstart : startOf p tree.here = startOf q tree.here :=
    startOf_congr (by simp [h]) tree.here
  rw [enter, hsteps, hstart, List.append_assoc, walk_append_eq hf (by simp) (by simp), hself,
    ← enter]
  refine congrArg _ (funext fun reached => ?_)
  rw [List.singleton_append, walk_name_eq hf (by simp) (by simp)]
  exact bind_pure _

theorem enter_reached (hw : tree.WellFormed) {location : Location}
    (h : tree.enter p = .ok location) : tree.find? location = some .directory :=
  walk_here hw (fun _ _ _ _ _ ho => by cases ho) (find?_startOf p hw.here) h

theorem enter_eq_walk (hf : tree.LinkFree)
    {onLink : Location → Path → List Step → Except SystemError Location} (p : Path) :
    tree.enter p = walk tree .look onLink (startOf p tree.here) (pathSteps p ++ [.here]) := by
  rw [walk_noLink hf, walk_append_eq hf (by simp) (by simp), filter_counts_pathSteps, ← enter]
  exact (bind_pure _).symm

/-- The directories that a path can name are those that it can be followed into. -/
theorem isDirectory_iff_enter (hw : tree.WellFormed) (hf : tree.LinkFree) :
    tree.isDirectory p = true ↔
      checkPath p = .ok () ∧ ∃ location, tree.enter p = .ok location := by
  have henter : tree.enter p =
      walk tree .look noLink (startOf p tree.here) (pathSteps p ++ [.here]) := enter_eq_walk hf p
  rw [isDirectory_iff, lookup_eq_ok, henter]
  constructor
  · rintro ⟨location, hl, hd⟩
    obtain ⟨u, hc, hwalk⟩ := bind_eq_ok.mp hl
    rw [walkLinks_noLink hf] at hwalk
    exact ⟨hc, location, walk_append hf (walk_pathSteps hf hwalk) hd⟩
  · rintro ⟨hc, location, hwalk⟩
    have hd : tree.find? location = some .directory :=
      enter_reached hw (henter.trans hwalk)
    have hsteps := walk_of_append hf (List.cons_ne_nil _ _) (fun _ => rfl) hwalk
    refine ⟨location, bind_eq_ok.mpr ⟨(), hc, ?_⟩, hd⟩
    rw [walkLinks_noLink hf, walkSteps]
    split
    · rw [walk_append hf hsteps hd]
      rfl
    · exact hsteps

theorem Updates.enter_eq {written : Location → Prop} {after : FileTree}
    (h : Updates written tree after) (he : tree.enter p ≠ .error .noEntry) :
    after.enter p = tree.enter p := by
  rw [enter, enter, h.here]
  exact h.walk_eq (fun _ _ _ _ => rfl) he

end FileTree

end ScriptNotebook
