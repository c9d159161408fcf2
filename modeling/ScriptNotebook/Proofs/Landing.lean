import ScriptNotebook.FileTree.Resolve
import ScriptNotebook.Proofs.PathComponents

/-!
Where a path leads in a tree without links.  Every walk that succeeds ends at the landing of the
path, the location read off its components alone, whatever the tree holds.
-/
namespace ScriptNotebook

theorem bind_eq_ok {ε α β : Type} {x : Except ε α} {f : α → Except ε β} {b : β} :
    x >>= f = .ok b ↔ ∃ a, x = .ok a ∧ f a = .ok b := by
  cases x <;> simp [bind, Except.bind]

theorem map_eq_ok {ε α β : Type} {x : Except ε α} {f : α → β} {b : β} :
    x.map f = .ok b ↔ ∃ a, x = .ok a ∧ f a = b := by
  cases x <;> simp [Except.map]

theorem mapError_eq_ok {ε ε' α : Type} {x : Except ε α} {f : ε → ε'} {a : α} :
    x.mapError f = .ok a ↔ x = .ok a := by
  cases x <;> simp [Except.mapError]

theorem exists_of_isOk {ε α : Type} {x : Except ε α} (h : x.isOk = true) : ∃ a, x = .ok a := by
  cases x with
  | error e => cases h
  | ok a => exact ⟨a, rfl⟩

namespace Path

def Component.move (at_ : Location) : Component → Location
  | root => []
  | here => at_
  | up => at_.tail
  | name n => n :: at_

/-- The location that a path leads to when directories are all that it meets on the way. -/
def landing (p : Path) (here : Location) : Location := p.components.foldl Component.move here

theorem foldl_move_names (names : List Text) (at_ : Location) :
    (names.map Component.name).foldl Component.move at_ = names.reverse ++ at_ := by
  induction names generalizing at_ with
  | nil => rfl
  | cons name names ih => simp [ih, Component.move]

theorem landing_of_components {p : Path} {front : List Component} {names : List Text}
    (h : p.components = front ++ names.map .name) (here : Location) :
    p.landing here = names.reverse ++ front.foldl Component.move here := by
  rw [landing, h, List.foldl_append, foldl_move_names]

theorem landing_of_last {p : Path} {front : List Component} {name : Text}
    (h : p.components = front ++ [.name name]) (here : Location) :
    p.landing here = name :: front.foldl Component.move here := by
  rw [landing, h, List.foldl_append]
  rfl

end Path

namespace FileTree

def LinkFree (tree : FileTree) : Prop :=
  ∀ location target, tree.find? location ≠ some (.link target)

def Step.move (at_ : Location) : Step → Location
  | here | slash => at_
  | up => at_.tail
  | name t => t :: at_

theorem foldl_move_pieces (pieces : List Text) (at_ : Location) :
    (pieces.filterMap Step.ofPiece?).foldl Step.move at_ =
      (Path.counted pieces).foldl Path.Component.move at_ := by
  induction pieces generalizing at_ with
  | nil => rfl
  | cons piece pieces ih =>
    rw [Path.counted] at ih ⊢
    by_cases h0 : piece = []
    · simp [Step.ofPiece?, Path.Component.ofPiece?, Path.isIdle, h0, ih]
    · by_cases h1 : piece = ['.']
      · simp [Step.ofPiece?, Path.Component.ofPiece?, Path.isIdle, h1, ih, Step.move]
      · by_cases h2 : piece = ['.', '.'] <;>
          simp [Step.ofPiece?, Path.Component.ofPiece?, Path.isIdle, h0, h1, h2, ih, Step.move,
            Path.Component.move]

theorem foldl_move_pathSteps (p : Path) (here : Location) :
    (pathSteps p).foldl Step.move (startOf p here) = p.landing here := by
  rw [pathSteps, foldl_move_pieces, Path.landing, Path.components_eq, ← Path.parts_fst,
    List.foldl_append, startOf, Path.isAbsolute]
  cases p.parts.1 <;> rfl

theorem foldl_move_walkSteps (p : Path) (here : Location) :
    (walkSteps p).foldl Step.move (startOf p here) = p.landing here := by
  rw [← foldl_move_pathSteps, walkSteps]
  split
  · rw [List.foldl_append]
    rfl
  · rfl

/-- A walk that takes a name goes on in a directory or at a link, or ends there. -/
theorem walk_name_cases {tree : FileTree} {purpose : Purpose}
    {onLink : Location → Path → List Step → Except SystemError Location} {rest : List Step}
    {t : Text} {at_ location : Location}
    (hw : walk tree purpose onLink at_ (.name t :: rest) = .ok location) :
    (tree.find? (t :: at_) = some .directory ∧
        walk tree purpose onLink (t :: at_) rest = .ok location) ∨
      (∃ target, tree.find? (t :: at_) = some (.link target) ∧
        onLink at_ target rest = .ok location) ∨
      (tree.find? (t :: at_) ≠ some .directory ∧ rest = [] ∧ location = t :: at_ ∧
        (purpose ≠ .lookAtLink → ∀ target, tree.find? (t :: at_) ≠ some (.link target))) := by
  rw [walk] at hw
  split at hw
  · cases hw
  · split at hw
    · cases hw
    · split at hw
      · next hd => exact Or.inl ⟨hd, hw⟩
      · next target hl =>
        split at hw
        · next hp =>
          exact Or.inr (Or.inr ⟨by simp [hl], hp.2, (Except.ok.inj hw).symm,
            fun hn => absurd hp.1 hn⟩)
        · exact Or.inr (Or.inl ⟨target, hl, hw⟩)
      · next content hf =>
        split at hw
        · next hr =>
          exact Or.inr (Or.inr ⟨by simp [hf], hr, (Except.ok.inj hw).symm, by simp [hf]⟩)
        · cases hw
      · next hn =>
        split at hw
        · next hr =>
          exact Or.inr (Or.inr ⟨by simp [hn], hr, (Except.ok.inj hw).symm, by simp [hn]⟩)
        · cases hw

theorem walk_name_ok {tree : FileTree} (h : tree.LinkFree) {purpose : Purpose}
    {onLink : Location → Path → List Step → Except SystemError Location} {rest : List Step}
    {t : Text} {at_ location : Location}
    (hw : walk tree purpose onLink at_ (.name t :: rest) = .ok location) :
    (tree.find? (t :: at_) = some .directory ∧
        walk tree purpose onLink (t :: at_) rest = .ok location) ∨
      (tree.find? (t :: at_) ≠ some .directory ∧ rest = [] ∧ location = t :: at_) := by
  rcases walk_name_cases hw with hd | ⟨target, hl, -⟩ | ⟨hd, hr, hloc, -⟩
  · exact Or.inl hd
  · exact absurd hl (h _ target)
  · exact Or.inr ⟨hd, hr, hloc⟩

theorem walk_eq_foldl_move {tree : FileTree} (h : tree.LinkFree) {purpose : Purpose}
    {onLink : Location → Path → List Step → Except SystemError Location} {steps : List Step}
    {at_ location : Location} (hw : walk tree purpose onLink at_ steps = .ok location) :
    location = steps.foldl Step.move at_ := by
  induction steps generalizing at_ with
  | nil => simpa [walk] using hw.symm
  | cons step rest ih =>
    cases step with
    | here => exact ih hw
    | up => exact ih hw
    | slash => exact ih hw
    | name t =>
      rcases walk_name_ok h hw with ⟨-, hw⟩ | ⟨-, rfl, rfl⟩
      · exact ih hw
      · rfl

theorem walkLinks_eq_foldl_move {tree : FileTree} (h : tree.LinkFree) {purpose : Purpose}
    {links : Nat} {steps : List Step} {at_ location : Location}
    (hw : walkLinks tree purpose links at_ steps = .ok location) :
    location = steps.foldl Step.move at_ := by
  cases links <;> exact walk_eq_foldl_move h hw

theorem locate_eq_landing {tree : FileTree} (h : tree.LinkFree) {purpose : Purpose} {p : Path}
    {location : Location} (hl : tree.locate purpose p = .ok location) :
    location = p.landing tree.here := by
  rw [locate] at hl
  obtain ⟨-, -, hw⟩ := bind_eq_ok.mp hl
  rw [walkLinks_eq_foldl_move h hw, foldl_move_walkSteps]

/-- Both paths lead to one location, be it taken or free. -/
def SameFile (tree : FileTree) (p q : Path) : Prop :=
  ∃ location, tree.locate .look p = .ok location ∧ tree.locate .look q = .ok location

theorem SameFile.landing_eq {tree : FileTree} (h : tree.LinkFree) {p q : Path}
    (hs : tree.SameFile p q) : p.landing tree.here = q.landing tree.here := by
  obtain ⟨location, hp, hq⟩ := hs
  rw [← locate_eq_landing h hp, ← locate_eq_landing h hq]

end FileTree

end ScriptNotebook
