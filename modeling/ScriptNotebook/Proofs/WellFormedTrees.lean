import Mathlib.Data.List.Nodup
import Mathlib.Data.List.Pairwise
import ScriptNotebook.Proofs.Landing

/-!
Trees as they stand on a disk: names that a path can hold, one entry at a location, and every entry
in a directory, as is the tree's own place.  What a tree lists in a directory or below it is then
found there, once, and every walk ends at a place where an entry stands or may be made.
-/
namespace ScriptNotebook.FileTree

structure WellFormed (tree : FileTree) : Prop where
  names : ∀ e ∈ tree.entries, e.1 ≠ [] ∧ ∀ name ∈ e.1, Path.IsName name
  unique : (tree.entries.map (·.1)).Nodup
  above : ∀ e ∈ tree.entries, tree.find? e.1.tail = some .directory
  here : tree.find? tree.here = some .directory

instance (tree : FileTree) : Decidable tree.WellFormed :=
  decidable_of_iff
    ((∀ e ∈ tree.entries, e.1 ≠ [] ∧ ∀ name ∈ e.1, Path.IsName name) ∧
      (tree.entries.map Prod.fst).Nodup ∧
      (∀ e ∈ tree.entries, tree.find? e.1.tail = some .directory) ∧
      tree.find? tree.here = some .directory)
    ⟨fun ⟨hn, hu, ha, hh⟩ => ⟨hn, hu, ha, hh⟩, fun h => ⟨h.names, h.unique, h.above, h.here⟩⟩

theorem find?_fst_of_mem {entries : List (Location × Entry)}
    (h : (entries.map (·.1)).Nodup) {e : Location × Entry} (hm : e ∈ entries) :
    entries.find? (fun f => f.1 == e.1) = some e := by
  induction entries with
  | nil => cases hm
  | cons first rest ih =>
    rw [List.map_cons, List.nodup_cons] at h
    rcases List.mem_cons.mp hm with rfl | hm
    · simp
    · have hne : first.1 ≠ e.1 := by
        intro he
        exact h.1 (List.mem_map.mpr ⟨e, hm, he.symm⟩)
      rw [List.find?_cons_of_neg (by simpa using hne)]
      exact ih h.2 hm

theorem mem_of_find? {tree : FileTree} {name : Text} {above : Location} {entry : Entry}
    (hf : tree.find? (name :: above) = some entry) : (name :: above, entry) ∈ tree.entries := by
  rw [find?, Option.map_eq_some_iff] at hf
  obtain ⟨e, he, rfl⟩ := hf
  have hl : e.1 = name :: above := by simpa using List.find?_some he
  rw [← hl]
  exact List.mem_of_find?_eq_some he

theorem linkFree_of_entries {tree : FileTree}
    (h : ∀ e ∈ tree.entries, ∀ target, e.2 ≠ .link target) :
    tree.LinkFree := by
  intro location target hl
  cases location with
  | nil => cases hl
  | cons name above => exact h _ (mem_of_find? hl) target rfl

theorem exists_of_mem_below {tree : FileTree} {location : Location} {names : List Text}
    {entry : Entry} (hm : (names, entry) ∈ tree.below location) :
    names ≠ [] ∧ (names.reverse ++ location, entry) ∈ tree.entries := by
  obtain ⟨⟨l, entry'⟩, he, hb⟩ := List.mem_filterMap.mp hm
  obtain ⟨⟨hsuffix, hne⟩, hb⟩ := Option.ite_none_right_eq_some.mp hb
  obtain ⟨rfl, rfl⟩ := Prod.mk.inj (Option.some.inj hb)
  have hl := List.suffix_iff_eq_append.mp (List.isSuffixOf_iff_suffix.mp hsuffix)
  rw [List.reverse_reverse, hl]
  refine ⟨fun hn => hne ?_, he⟩
  rw [← hl, List.reverse_eq_nil_iff.mp hn, List.nil_append]

namespace WellFormed

variable {tree : FileTree}

theorem find?_of_mem (h : tree.WellFormed) {location : Location} {entry : Entry}
    (hm : (location, entry) ∈ tree.entries) : tree.find? location = some entry := by
  obtain ⟨name, above, rfl⟩ := List.exists_cons_of_ne_nil (h.names _ hm).1
  rw [find?, find?_fst_of_mem h.unique hm]
  rfl

/-- What stands above something is a directory. -/
theorem find?_above (h : tree.WellFormed) {names : List Text} {location : Location}
    (hn : names ≠ []) (hf : tree.find? (names ++ location) ≠ none) :
    tree.find? location = some .directory := by
  induction names with
  | nil => exact absurd rfl hn
  | cons name names ih =>
    obtain ⟨entry, he⟩ := Option.ne_none_iff_exists'.mp hf
    have ht : tree.find? (names ++ location) = some .directory := h.above _ (mem_of_find? he)
    by_cases hnames : names = []
    · simpa [hnames] using ht
    · exact ih hnames (by simp [ht])

theorem mem_children (h : tree.WellFormed) {location : Location} {name : Text} {entry : Entry}
    (hm : (name, entry) ∈ tree.children location) :
    Path.IsName name ∧ tree.find? (name :: location) = some entry := by
  obtain ⟨e, he, hc⟩ := List.mem_filterMap.mp hm
  split at hc
  · next name' above hl =>
    split at hc
    · next ha =>
      obtain ⟨rfl, rfl⟩ := Prod.mk.inj (Option.some.inj hc)
      have hmem : (name' :: location, e.2) ∈ tree.entries := by
        rw [← ha, ← hl]
        exact he
      exact ⟨(h.names _ hmem).2 name' List.mem_cons_self, h.find?_of_mem hmem⟩
    · cases hc
  · cases hc

theorem children_nodup (h : tree.WellFormed) (location : Location) :
    ((tree.children location).map (·.1)).Nodup := by
  rw [List.Nodup, List.pairwise_map, children]
  refine (List.pairwise_map.mp h.unique).filterMap _ ?_
  rintro ⟨l, entry⟩ ⟨l', entry'⟩ hne a ha b hb hab
  cases l with
  | nil => cases ha
  | cons name above =>
    cases l' with
    | nil => cases hb
    | cons name' above' =>
      obtain ⟨habove, ha⟩ := Option.ite_none_right_eq_some.mp ha
      obtain ⟨habove', hb⟩ := Option.ite_none_right_eq_some.mp hb
      have hname : name = name' := by
        have hn : name = a.1 := congrArg Prod.fst (Option.some.inj ha)
        have hn' : name' = b.1 := congrArg Prod.fst (Option.some.inj hb)
        rw [hn, hn', hab]
      exact hne (by rw [hname, habove, habove'])

theorem mem_below (h : tree.WellFormed) {location : Location} {names : List Text} {entry : Entry}
    (hm : (names, entry) ∈ tree.below location) :
    names ≠ [] ∧ (∀ name ∈ names, Path.IsName name) ∧
      tree.find? (names.reverse ++ location) = some entry := by
  obtain ⟨hne, he⟩ := exists_of_mem_below hm
  refine ⟨hne, fun name hn => ?_, h.find?_of_mem he⟩
  exact (h.names _ he).2 name (List.mem_append_left location (List.mem_reverse.mpr hn))

theorem below_nodup (h : tree.WellFormed) (location : Location) :
    ((tree.below location).map (·.1)).Nodup := by
  rw [List.Nodup, List.pairwise_map, below]
  refine (List.pairwise_map.mp h.unique).filterMap _ ?_
  intro e f hne a ha b hb hab
  obtain ⟨⟨hs, -⟩, ha⟩ := Option.ite_none_right_eq_some.mp ha
  obtain ⟨⟨hs', -⟩, hb⟩ := Option.ite_none_right_eq_some.mp hb
  obtain rfl := Option.some.inj ha
  obtain rfl := Option.some.inj hb
  have he := List.suffix_iff_eq_append.mp (List.isSuffixOf_iff_suffix.mp hs)
  have hf := List.suffix_iff_eq_append.mp (List.isSuffixOf_iff_suffix.mp hs')
  exact hne (by rw [← he, ← hf, List.reverse_injective hab])

end WellFormed

/-- An entry stands at the location or may be made there. -/
def Place (tree : FileTree) (location : Location) : Prop :=
  tree.find? location.tail = some .directory ∧ ∀ name ∈ location.head?, Path.IsName name

theorem WellFormed.place {tree : FileTree} (h : tree.WellFormed) {location : Location}
    (hf : tree.find? location ≠ none) : tree.Place location := by
  cases location with
  | nil => exact ⟨rfl, fun name hn => nomatch hn⟩
  | cons name above =>
    obtain ⟨entry, he⟩ := Option.ne_none_iff_exists'.mp hf
    have hm := mem_of_find? he
    refine ⟨h.above _ hm, fun name' hn => ?_⟩
    obtain rfl := Option.some.inj hn
    exact (h.names _ hm).2 name List.mem_cons_self

theorem isName_of_mem_pathSteps {p : Path} {name : Text} (h : .name name ∈ pathSteps p) :
    Path.IsName name := by
  obtain ⟨piece, hm, hp⟩ := List.mem_filterMap.mp h
  rw [Step.ofPiece?] at hp
  split at hp
  · cases hp
  · split at hp
    · cases hp
    · split at hp
      · cases hp
      · obtain rfl := Step.name.inj (Option.some.inj hp)
        exact ⟨‹_›, Text.not_mem_of_mem_cut hm, ‹_›, ‹_›⟩

theorem isName_of_mem_walkSteps {p : Path} {name : Text} (h : .name name ∈ walkSteps p) :
    Path.IsName name := by
  rw [walkSteps] at h
  split at h
  · exact isName_of_mem_pathSteps (by simpa using h)
  · exact isName_of_mem_pathSteps h

/-- What a walk can end at: a place, with no link there unless the walk was for a link. -/
def Reached (tree : FileTree) (purpose : Purpose) (location : Location) : Prop :=
  tree.Place location ∧
    (purpose ≠ .lookAtLink → ∀ target, tree.find? location ≠ some (.link target))

theorem walk_reached {tree : FileTree} (hw : tree.WellFormed) {purpose : Purpose}
    {onLink : Location → Path → List Step → Except SystemError Location} {steps : List Step}
    (hs : ∀ name, .name name ∈ steps → Path.IsName name)
    (ho : ∀ at_ target rest location, tree.find? at_ = some .directory →
      (∀ name, .name name ∈ rest → Path.IsName name) →
      onLink at_ target rest = .ok location → tree.Reached purpose location)
    {at_ location : Location} (ha : tree.find? at_ = some .directory)
    (h : walk tree purpose onLink at_ steps = .ok location) : tree.Reached purpose location := by
  induction steps generalizing at_ with
  | nil =>
    obtain rfl := Except.ok.inj h
    exact ⟨hw.place (by simp [ha]), fun _ target => by simp [ha]⟩
  | cons step rest ih =>
    have hrest : ∀ name, .name name ∈ rest → Path.IsName name :=
      fun name hn => hs name (List.mem_cons_of_mem step hn)
    cases step with
    | here => exact ih hrest ha h
    | slash => exact ih hrest ha h
    | up => exact ih hrest (hw.place (by simp [ha])).1 h
    | name t =>
      have hplace : tree.Place (t :: at_) := by
        refine ⟨ha, fun name hn => ?_⟩
        obtain rfl := Option.some.inj hn
        exact hs t List.mem_cons_self
      rcases walk_name_cases h with ⟨hd, h⟩ | ⟨target, -, h⟩ | ⟨-, -, rfl, hl⟩
      · exact ih hrest hd h
      · exact ho _ _ _ _ ha hrest h
      · exact ⟨hplace, hl⟩

theorem find?_startOf {tree : FileTree} (p : Path) {at_ : Location}
    (ha : tree.find? at_ = some .directory) :
    tree.find? (startOf p at_) = some .directory := by
  rw [startOf]
  split
  · rfl
  · exact ha

theorem walkLinks_reached {tree : FileTree} (hw : tree.WellFormed) {purpose : Purpose}
    {links : Nat} {steps : List Step} (hs : ∀ name, .name name ∈ steps → Path.IsName name)
    {at_ location : Location} (ha : tree.find? at_ = some .directory)
    (h : walkLinks tree purpose links at_ steps = .ok location) :
    tree.Reached purpose location := by
  induction links generalizing at_ steps location with
  | zero => exact walk_reached hw hs (fun _ _ _ _ _ _ h => by cases h) ha h
  | succ links ih =>
    refine walk_reached hw hs (fun at_ target rest location hd hrest ho => ?_) ha h
    refine ih (fun name hn => ?_) (find?_startOf target hd) ho
    rcases List.mem_append.mp hn with hn | hn
    · exact isName_of_mem_walkSteps hn
    · exact hrest name hn

theorem locate_reached {tree : FileTree} (hw : tree.WellFormed) {purpose : Purpose} {p : Path}
    {location : Location} (h : tree.locate purpose p = .ok location) :
    tree.Reached purpose location := by
  obtain ⟨-, -, h⟩ := bind_eq_ok.mp h
  exact walkLinks_reached hw (fun _ hn => isName_of_mem_walkSteps hn)
    (find?_startOf p hw.here) h

theorem walk_here {tree : FileTree} (hw : tree.WellFormed) {purpose : Purpose}
    {onLink : Location → Path → List Step → Except SystemError Location}
    (ho : ∀ at_ target rest location, tree.find? at_ = some .directory →
      onLink at_ target (rest ++ [.here]) = .ok location → tree.find? location = some .directory)
    {steps : List Step} {at_ location : Location} (ha : tree.find? at_ = some .directory)
    (h : walk tree purpose onLink at_ (steps ++ [.here]) = .ok location) :
    tree.find? location = some .directory := by
  induction steps generalizing at_ with
  | nil =>
    obtain rfl := Except.ok.inj h
    exact ha
  | cons step rest ih =>
    cases step with
    | here => exact ih ha h
    | slash => exact ih ha h
    | up => exact ih (hw.place (by simp [ha])).1 h
    | name t =>
      rw [List.cons_append] at h
      rcases walk_name_cases h with ⟨hd, h⟩ | ⟨target, -, h⟩ | ⟨-, hr, -⟩
      · exact ih hd h
      · exact ho _ _ _ _ ha h
      · simp at hr

theorem walkLinks_here {tree : FileTree} (hw : tree.WellFormed) {purpose : Purpose} {links : Nat}
    {steps : List Step} {at_ location : Location} (ha : tree.find? at_ = some .directory)
    (h : walkLinks tree purpose links at_ (steps ++ [.here]) = .ok location) :
    tree.find? location = some .directory := by
  induction links generalizing at_ steps location with
  | zero => exact walk_here hw (fun _ _ _ _ _ h => by cases h) ha h
  | succ links ih =>
    refine walk_here hw (fun at_ target rest location hd ho => ?_) ha h
    rw [← List.append_assoc] at ho
    exact ih (find?_startOf target hd) ho

theorem mem_setEntry {location : Location} {entry : Entry} {entries : List (Location × Entry)}
    {e : Location × Entry} (h : e ∈ setEntry location entry entries) :
    e = (location, entry) ∨ e ∈ entries := by
  induction entries with
  | nil => exact Or.inl (List.mem_singleton.mp h)
  | cons first rest ih =>
    rw [setEntry] at h
    split at h
    · rcases List.mem_cons.mp h with h | h
      · exact Or.inl h
      · exact Or.inr (List.mem_cons_of_mem first h)
    · rcases List.mem_cons.mp h with rfl | h
      · exact Or.inr List.mem_cons_self
      · exact (ih h).imp id (List.mem_cons_of_mem first)

theorem setEntry_nodup {location : Location} {entry : Entry} {entries : List (Location × Entry)}
    (h : (entries.map (·.1)).Nodup) : ((setEntry location entry entries).map (·.1)).Nodup := by
  induction entries with
  | nil => simp [setEntry]
  | cons first rest ih =>
    rw [List.map_cons, List.nodup_cons] at h
    rw [setEntry]
    split
    · next hl => simpa [← hl] using h
    · next hl =>
      rw [List.map_cons, List.nodup_cons]
      refine ⟨fun hm => ?_, ih h.2⟩
      obtain ⟨e, he, hf⟩ := List.mem_map.mp hm
      rcases mem_setEntry he with rfl | he
      · exact hl hf.symm
      · exact h.1 (List.mem_map.mpr ⟨e, he, hf⟩)

theorem find?_set (tree : FileTree) (name : Text) (above location : Location) (entry : Entry) :
    (tree.set (name :: above) entry).find? location =
      if location = name :: above then some entry else tree.find? location := by
  split
  · next h => rw [h, find?_set_self]
  · next h => exact find?_set_ne tree h entry

/-- An entry at a place keeps a tree well formed, unless it takes the place of a directory. -/
theorem WellFormed.set {tree : FileTree} (hw : tree.WellFormed) {name : Text} {above : Location}
    (hp : tree.Place (name :: above)) (hd : tree.find? (name :: above) ≠ some .directory)
    (entry : Entry) : (tree.set (name :: above) entry).WellFormed := by
  have hkeep : ∀ location, tree.find? location = some .directory →
      (tree.set (name :: above) entry).find? location = some .directory := by
    intro location hl
    have hne : location ≠ name :: above := by
      rintro rfl
      exact hd hl
    rw [find?_set, if_neg hne, hl]
  have habove : tree.find? above = some .directory := hp.1
  refine ⟨?_, setEntry_nodup hw.unique, ?_, hkeep _ hw.here⟩
  · intro e he
    rcases mem_setEntry he with rfl | he
    · refine ⟨List.cons_ne_nil name above, fun n hn => ?_⟩
      rcases List.mem_cons.mp hn with rfl | hn
      · exact hp.2 n rfl
      · cases above with
        | nil => cases hn
        | cons up rest =>
          exact (hw.names _ (mem_of_find? habove)).2 n hn
    · exact hw.names e he
  · intro e he
    rcases mem_setEntry he with rfl | he
    · exact hkeep _ habove
    · exact hkeep _ (hw.above e he)

end ScriptNotebook.FileTree
