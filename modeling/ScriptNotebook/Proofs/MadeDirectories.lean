import ScriptNotebook.Proofs.ContinuedWalks
import ScriptNotebook.Proofs.ParentPaths

/-!
Making directories again.  In a tree without links, what came of making a path with those above it
comes of it at any later time, without a change to the tree, provided that the path leads from a
directory through names alone.
-/
namespace ScriptNotebook.FileTree

variable {tree made later : FileTree} {p q : Path} {e : SystemError}

/-- The directory that the last step of a path is taken in. -/
def enterFront (tree : FileTree) (p : Path) : Except SystemError Location :=
  walk tree .look noLink (startOf p tree.here) ((pathSteps p).dropLast ++ [.here])

def enterLast (tree : FileTree) (above : Location) : Option Step → Except SystemError Location
  | some (.name name) => tree.into above name
  | some .up => .ok above.tail
  | _ => .ok above

def addLast (tree : FileTree) (above : Location) : Option Step → Except SystemError FileTree
  | some (.name name) =>
    if maxName < byteLength name then .error .nameTooLong
    else if (tree.find? (name :: above)).isSome then .error .alreadyExists
    else .ok (tree.set (name :: above) .directory)
  | _ => .error .alreadyExists

theorem makeDirectory_eq (hf : tree.LinkFree) (hc : checkPath p = .ok ()) :
    tree.makeDirectory p =
      tree.enterFront p >>= fun above => tree.addLast above (pathSteps p).getLast? := by
  simp only [makeDirectory, addEntry, hc, walkLinks_noLink hf, enterFront, addLast.eq_def]
  rfl

theorem enter_eq_front (hf : tree.LinkFree) (p : Path) :
    tree.enter p =
      tree.enterFront p >>= fun above => tree.enterLast above (pathSteps p).getLast? := by
  have henter : tree.enter p =
      walk tree .look noLink (startOf p tree.here) (pathSteps p ++ [.here]) := enter_eq_walk hf p
  rw [henter, enterFront]
  cases pathSteps p using List.reverseRecOn with
  | nil => rfl
  | append_singleton front last =>
    have hfront : walk tree .look noLink (startOf p tree.here) (front ++ [.here]) =
        walk tree .look noLink (startOf p tree.here) (front.filter Step.counts ++ [.here]) := by
      rw [walk_append_eq hf (by simp) (by simp)]
      exact bind_pure _
    rw [List.dropLast_concat, List.getLast?_concat, List.append_assoc, List.singleton_append,
      walk_append_eq hf (by simp) (by simp), ← hfront]
    refine congrArg _ (funext fun above => ?_)
    cases last with
    | here => rfl
    | up => rfl
    | slash => rfl
    | name t =>
      rw [walk_name_eq hf (by simp) (by simp)]
      exact bind_pure _

theorem NameIn.enterFront_eq {name : Text} (h : NameIn p q name) (hf : tree.LinkFree) :
    tree.enterFront p = tree.enter q := by
  obtain ⟨steps, hs, hcounted⟩ := h.exists_steps
  rw [enterFront, hs, List.dropLast_concat, walk_append_eq hf (by simp) (by simp), hcounted,
    h.startOf_eq, ← enter]
  exact bind_pure _

/-- What can come of making a directory, and where the path leads before that. -/
inductive Making (tree : FileTree) (p : Path) : Prop
  | there {location : Location} (henter : tree.enter p = .ok location)
      (hmake : tree.makeDirectory p = .error .alreadyExists)
  | file (henter : tree.enter p = .error .notDirectory)
      (hmake : tree.makeDirectory p = .error .alreadyExists)
  | refused {e : SystemError} (hne : e ≠ .noEntry) (henter : tree.enter p = .error e)
      (hmake : tree.makeDirectory p = .error e)
  | early (hfront : tree.enterFront p = .error .noEntry) (henter : tree.enter p = .error .noEntry)
      (hmake : tree.makeDirectory p = .error .noEntry)
  | new {above : Location} {name : Text} (hlast : (pathSteps p).getLast? = some (.name name))
      (hfront : tree.enterFront p = .ok above) (hshort : byteLength name ≤ maxName)
      (henter : tree.enter p = .error .noEntry)
      (hmake : tree.makeDirectory p = .ok (tree.set (name :: above) .directory))

theorem making (hf : tree.LinkFree) (hc : checkPath p = .ok ()) : tree.Making p := by
  have henter := enter_eq_front hf p
  have hmake := makeDirectory_eq hf hc
  cases hfront : tree.enterFront p with
  | error e =>
    rw [hfront] at henter hmake
    by_cases he : e = .noEntry
    · subst he
      exact .early hfront henter hmake
    · exact .refused he henter hmake
  | ok above =>
    rw [hfront] at henter hmake
    cases hlast : (pathSteps p).getLast? with
    | none =>
      rw [hlast] at henter hmake
      exact .there henter hmake
    | some last =>
      rw [hlast] at henter hmake
      cases last with
      | here => exact .there henter hmake
      | up => exact .there henter hmake
      | slash => exact .there henter hmake
      | name name =>
        replace henter : tree.enter p = tree.into above name := henter
        replace hmake : tree.makeDirectory p =
            if maxName < byteLength name then .error .nameTooLong
            else if (tree.find? (name :: above)).isSome then .error .alreadyExists
            else .ok (tree.set (name :: above) .directory) := hmake
        rw [into] at henter
        by_cases hl : maxName < byteLength name
        · rw [if_pos hl] at henter hmake
          exact .refused (by decide) henter hmake
        · rw [if_neg hl] at henter hmake
          cases hfind : tree.find? (name :: above) with
          | none =>
            rw [hfind] at henter hmake
            exact .new hlast hfront (Nat.le_of_not_lt hl) henter hmake
          | some entry =>
            rw [hfind] at henter hmake
            cases entry with
            | directory => exact .there henter hmake
            | link target => exact .file henter hmake
            | file content => exact .file henter hmake

theorem makeDirectory_of_checkPath (hc : checkPath p = .error e) :
    tree.makeDirectory p = .error e := by
  rw [makeDirectory, addEntry, hc]
  rfl

theorem checkPath_of_isDirectory (h : tree.isDirectory p) : checkPath p = .ok () := by
  obtain ⟨location, hl, -⟩ := lookup_eq_ok.mp (isDirectory_iff.mp h)
  obtain ⟨u, hc, -⟩ := bind_eq_ok.mp hl
  exact hc

theorem makeDirectory_of_enter (hf : tree.LinkFree) (hc : checkPath p = .ok ())
    {location : Location} (h : tree.enter p = .ok location) :
    tree.makeDirectory p = .error .alreadyExists := by
  cases making hf hc with
  | there henter hmake => exact hmake
  | file henter hmake => exact hmake
  | refused hne henter hmake => cases h.symm.trans henter
  | early hfront henter hmake => cases h.symm.trans henter
  | new hlast hfront hshort henter hmake => cases h.symm.trans henter

theorem makeDirectory_of_isDirectory (hw : tree.WellFormed) (hf : tree.LinkFree)
    (h : tree.isDirectory p) : tree.makeDirectory p = .error .alreadyExists := by
  obtain ⟨hc, location, henter⟩ := (isDirectory_iff_enter hw hf).mp h
  exact makeDirectory_of_enter hf hc henter

section

variable {written : Location → Prop}

theorem Updates.enterFront_eq (h : Updates written tree later)
    (he : tree.enterFront p ≠ .error .noEntry) : later.enterFront p = tree.enterFront p := by
  rw [enterFront, enterFront, h.here]
  exact h.walk_eq (fun _ _ _ _ => rfl) he

theorem Updates.enter_ok (h : Updates written tree later) {location : Location}
    (he : tree.enter p = .ok location) : later.enter p = .ok location := by
  rw [h.enter_eq (by simp [he]), he]

theorem Updates.addLast_eq (h : Updates written tree later) {above : Location}
    {last : Option Step} (he : tree.addLast above last = .error e) :
    later.addLast above last = .error e := by
  rw [addLast.eq_def] at he ⊢
  split at he
  · split at he
    · next hl => rw [if_pos hl, he]
    · next hl =>
      rw [if_neg hl]
      split at he
      · next hs => rw [if_pos (h.find?_isSome hs), he]
      · cases he
  · exact he

/-- A directory that cannot be made cannot be made later, unless it was for want of one above. -/
theorem Updates.makeDirectory_eq (h : Updates written tree later) (hf : tree.LinkFree)
    (he : e ≠ .noEntry) (hm : tree.makeDirectory p = .error e) :
    later.makeDirectory p = .error e := by
  cases hc : checkPath p with
  | error e' => rwa [makeDirectory_of_checkPath hc] at hm ⊢
  | ok u =>
    rw [FileTree.makeDirectory_eq hf hc] at hm
    rw [FileTree.makeDirectory_eq (h.linkFree hf) hc]
    cases hfront : tree.enterFront p with
    | error e' =>
      rw [hfront] at hm
      obtain rfl : e' = e := Except.error.inj hm
      rw [h.enterFront_eq (by simpa [hfront] using he), hfront]
      exact hm
    | ok above =>
      rw [hfront] at hm
      rw [h.enterFront_eq (by simp [hfront]), hfront]
      exact h.addLast_eq hm

theorem isDirectory_of_later (hw : tree.WellFormed) (hf : tree.LinkFree)
    (h : Updates written tree later) (hw' : later.WellFormed) (he : e ≠ .noEntry)
    (hm : tree.makeDirectory p = .error e) (hd : later.isDirectory p) : tree.isDirectory p := by
  obtain ⟨hc, location, henter'⟩ := (isDirectory_iff_enter hw' (h.linkFree hf)).mp hd
  have hkept : tree.enter p ≠ .error .noEntry → tree.enter p = .ok location :=
    fun hn => (h.enter_eq hn).symm.trans henter'
  refine (isDirectory_iff_enter hw hf).mpr ⟨hc, location, hkept ?_⟩
  cases making hf hc with
  | there henter hmake => simp [henter]
  | file henter hmake => exact henter ▸ by decide
  | refused hne henter hmake => simpa [henter] using hne
  | early hfront henter hmake => exact absurd (Except.error.inj (hm.symm.trans hmake)) he
  | new hlast hfront hshort henter hmake => cases hm.symm.trans hmake

end

theorem enterFront_of_noEntry (hf : tree.LinkFree) (hp : p.text ≠ [])
    (hm : tree.makeDirectory p = .error .noEntry) :
    checkPath p = .ok () ∧ tree.enterFront p = .error .noEntry := by
  cases hc : checkPath p with
  | error e =>
    obtain rfl := Except.error.inj ((makeDirectory_of_checkPath hc).symm.trans hm)
    exact absurd hc (checkPath_ne hp)
  | ok u =>
    refine ⟨rfl, ?_⟩
    cases making hf hc with
    | there henter hmake => cases hm.symm.trans hmake
    | file henter hmake => cases hm.symm.trans hmake
    | refused hne henter hmake => exact absurd (Except.error.inj (hmake.symm.trans hm)) hne
    | early hfront henter hmake => exact hfront
    | new hlast hfront hshort henter hmake => cases hm.symm.trans hmake

theorem isDirectory_of_makeDirectory (h : tree.makeDirectory p = .ok made) :
    made.isDirectory p := by
  obtain ⟨name, above, -, rfl, hl⟩ := makeDirectory_ok h
  exact isDirectory_iff.mpr (lookup_eq_ok.mpr ⟨_, hl, find?_set_self tree name above _⟩)

/-- Makes a directory unless it is there already. -/
def settle (tree : FileTree) (p : Path) : FileTree × Except SystemError Unit :=
  match tree.makeDirectory p with
  | .ok made => (made, .ok ())
  | .error e => (tree, if tree.isDirectory p then .ok () else .error e)

theorem makeDirectoriesOf_spec (hw : tree.WellFormed) {paths : List Path}
    {result : Except SystemError Unit} (h : tree.makeDirectoriesOf paths = (made, result)) :
    made.WellFormed ∧ Updates (fun _ => False) tree made := by
  obtain rfl : (tree.makeDirectoriesOf paths).1 = made := by rw [h]
  exact ⟨hw.makeDirectoriesOf paths, makeDirectoriesOf_updates tree paths⟩

theorem makeDirectoriesOf_of_ne (hp : p.text ≠ [])
    (hm : tree.makeDirectory p ≠ .error .noEntry) (above : List Path) :
    tree.makeDirectoriesOf (p :: above) = tree.settle p := by
  rw [makeDirectoriesOf, if_neg hp, settle]
  cases he : tree.makeDirectory p with
  | ok made => rfl
  | error e =>
    refine if_neg ?_
    rintro rfl
    exact hm he

theorem makeDirectoriesOf_of_noEntry (hp : p.text ≠ [])
    (hm : tree.makeDirectory p = .error .noEntry) (above : List Path) :
    tree.makeDirectoriesOf (p :: above) =
      match tree.makeDirectoriesOf above with
      | (made, .error e) => (made, .error e)
      | (made, .ok ()) => made.settle p := by
  rw [makeDirectoriesOf, if_neg hp, hm]
  dsimp only
  rw [if_pos rfl]
  rcases tree.makeDirectoriesOf above with ⟨made, e | u⟩ <;> rfl

/-- What has come of making a path with those above it, and stays so. -/
inductive Settled (tree : FileTree) (p : Path) : Except SystemError Unit → Prop
  | empty (hp : p.text = []) : Settled tree p (.ok ())
  | directory (hd : tree.isDirectory p) : Settled tree p (.ok ())
  | error {e : SystemError} (hp : p.text ≠ []) (hne : e ≠ .noEntry)
      (hmake : tree.makeDirectory p = .error e) (hd : ¬ tree.isDirectory p) :
      Settled tree p (.error e)

theorem isDirectory_of_settle (h : tree.settle p = (made, .ok ())) : made.isDirectory p := by
  rw [settle] at h
  split at h
  · next made' hm =>
    obtain ⟨rfl, -⟩ := Prod.mk.inj h
    exact isDirectory_of_makeDirectory hm
  · obtain ⟨rfl, hd⟩ := Prod.mk.inj h
    by_contra hn
    rw [if_neg hn] at hd
    cases hd

theorem settled_of_settle (hp : p.text ≠ []) (hne : tree.makeDirectory p ≠ .error .noEntry)
    {result : Except SystemError Unit} (h : tree.settle p = (made, result)) :
    made.Settled p result := by
  cases result with
  | ok u => exact .directory (isDirectory_of_settle h)
  | error e =>
    rw [settle] at h
    split at h
    · cases (Prod.mk.inj h).2
    · next e' hm =>
      obtain ⟨rfl, hd⟩ := Prod.mk.inj h
      split at hd
      · cases hd
      · next hn =>
        obtain rfl := Except.error.inj hd
        refine .error hp ?_ hm hn
        rintro rfl
        exact hne hm

theorem exists_ancestors (steps : Nat) (p : Path) : ∃ above, ancestors steps p = p :: above := by
  cases steps with
  | zero => exact ⟨[], rfl⟩
  | succ steps => exact ⟨_, rfl⟩

namespace Settled

variable {written : Location → Prop} {result : Except SystemError Unit}

theorem makeDirectories (hw : tree.WellFormed) (hf : tree.LinkFree)
    (h : tree.Settled p result) : tree.makeDirectories p = (tree, result) := by
  obtain ⟨above, ha⟩ := exists_ancestors p.text.length p
  rw [FileTree.makeDirectories, ha]
  cases h with
  | empty hp => rw [makeDirectoriesOf, if_pos hp]
  | directory hd =>
    have hp : p.text ≠ [] := text_ne_nil_of_checkPath (checkPath_of_isDirectory hd)
    have hm := makeDirectory_of_isDirectory hw hf hd
    rw [makeDirectoriesOf_of_ne hp (by rw [hm]; decide), settle, hm]
    exact congrArg _ (if_pos hd)
  | error hp hne hmake hd =>
    rw [makeDirectoriesOf_of_ne hp (by simpa [hmake] using hne), settle, hmake]
    exact congrArg _ (if_neg hd)

theorem stays (hw : tree.WellFormed) (hf : tree.LinkFree) (h : tree.Settled p result)
    (hu : Updates written tree later) (hw' : later.WellFormed) : later.Settled p result := by
  cases h with
  | empty hp => exact .empty hp
  | directory hd => exact .directory (hu.isDirectory hd)
  | error hp hne hmake hd =>
    exact .error hp hne (hu.makeDirectory_eq hf hne hmake)
      fun hd' => hd (isDirectory_of_later hw hf hu hw' hne hmake hd')

theorem exists_enter (hw : tree.WellFormed) (hf : tree.LinkFree)
    (h : tree.Settled p (.ok ())) : ∃ location, tree.enter p = .ok location := by
  cases h with
  | empty hp =>
    obtain ⟨text⟩ := p
    obtain rfl : text = [] := hp
    exact ⟨tree.here, rfl⟩
  | directory hd => exact ((isDirectory_iff_enter hw hf).mp hd).2

end Settled

/-- A path that has been made with those above it is a directory, whichever way it leads. -/
theorem isDirectory_of_makeDirectories (hp : p.text ≠ [])
    (h : tree.makeDirectories p = (made, .ok ())) : made.isDirectory p := by
  obtain ⟨above, ha⟩ := exists_ancestors p.text.length p
  rw [makeDirectories, ha] at h
  by_cases hm : tree.makeDirectory p = .error .noEntry
  · rw [makeDirectoriesOf_of_noEntry hp hm] at h
    split at h
    · cases (Prod.mk.inj h).2
    · exact isDirectory_of_settle h
  · rw [makeDirectoriesOf_of_ne hp hm] at h
    exact isDirectory_of_settle h

theorem settled_of_makeDirectories (h : tree.makeDirectories p = (made, .ok ())) :
    made.Settled p (.ok ()) := by
  by_cases hp : p.text = []
  · exact .empty hp
  · exact .directory (isDirectory_of_makeDirectories hp h)

/-- A path leads from a directory through names alone.  Were there a step up among the names, a
directory made on the way could open the way to a file that was not met before. -/
inductive BelowDirectory (tree : FileTree) : Path → Prop
  | directory {p : Path} {location : Location} (h : tree.enter p = .ok location) :
      BelowDirectory tree p
  | name {p q : Path} {name : Text} (hp : NameIn p q name) (hq : BelowDirectory tree q) :
      BelowDirectory tree p

namespace BelowDirectory

/-- A directory from the start that is entered later could be entered from the start. -/
theorem enter_of_later (hw : tree.WellFormed) (hf : tree.LinkFree) (h : tree.BelowDirectory p)
    (hu : Updates (fun _ => False) tree later) {location : Location}
    (henter : later.enter p = .ok location) (hd : tree.find? location = some .directory) :
    tree.enter p = .ok location := by
  induction h generalizing location with
  | directory h =>
    rw [h, ← hu.enter_ok h, henter]
  | @name p q name hp hq ih =>
    rw [enter_of_components (hu.linkFree hf) hp.components] at henter
    obtain ⟨reached, hreached, hinto⟩ := bind_eq_ok.mp henter
    obtain ⟨hl, rfl, -⟩ := into_eq_ok.mp hinto
    have hup : tree.find? reached = some .directory :=
      hw.find?_above (List.cons_ne_nil name []) (by simp [hd])
    rw [enter_of_components hf hp.components, ih hreached hup]
    exact into_eq_ok.mpr ⟨hl, rfl, hd⟩

theorem notDirectory_of_later (hw : tree.WellFormed) (hf : tree.LinkFree)
    (h : tree.BelowDirectory p) (hu : Updates (fun _ => False) tree later)
    (henter : later.enter p = .error .notDirectory) : tree.enter p = .error .notDirectory := by
  induction h with
  | directory h =>
    rw [h, ← hu.enter_ok h, henter]
  | @name p q name hp hq ih =>
    rw [enter_of_components (hu.linkFree hf) hp.components] at henter
    rw [enter_of_components hf hp.components]
    cases hreached : later.enter q with
    | error e =>
      rw [hreached] at henter
      obtain rfl : e = .notDirectory := Except.error.inj henter
      rw [ih hreached]
      rfl
    | ok reached =>
      rw [hreached] at henter
      obtain ⟨hl, entry, hfind, hne⟩ := into_eq_notDirectory.mp henter
      cases entry with
      | directory => exact absurd rfl hne
      | link target => exact absurd hfind (hu.linkFree hf _ target)
      | file content =>
        have hfile := (hu.file_of_after hfind).resolve_left id
        have hup : tree.find? reached = some .directory :=
          hw.find?_above (List.cons_ne_nil name []) (by simp [hfile])
        rw [hq.enter_of_later hw hf hu hreached hup]
        exact into_eq_notDirectory.mpr ⟨hl, _, hfile, hne⟩

/-- Where nothing came of the parent, nothing comes of the path, for the same reason. -/
theorem settled_of_above (hw : tree.WellFormed) (hf : tree.LinkFree) (h : tree.BelowDirectory q)
    (hu : Updates (fun _ => False) tree later) (hw' : later.WellFormed)
    {name : Text} (hname : NameIn p q name)
    (hmissing : tree.makeDirectory p = .error .noEntry) (habove : later.Settled q (.error e)) :
    later.Settled p (.error e) := by
  have hp := hname.text_ne_nil
  have hf' := hu.linkFree hf
  obtain ⟨hcp, hfront⟩ := enterFront_of_noEntry hf hp hmissing
  rw [hname.enterFront_eq hf] at hfront
  cases habove with
  | error hq hne hmake hd =>
    have hcq := checkPath_parent hname.parent hq hcp
    have henter : later.enter q = .error e := by
      cases making hf' hcq with
      | there henter hmake' =>
        exact absurd ((isDirectory_iff_enter hw' hf').mpr ⟨hcq, _, henter⟩) hd
      | file henter hmake' =>
        cases (h.notDirectory_of_later hw hf hu henter).symm.trans hfront
      | refused hne' henter hmake' =>
        rw [henter, Except.error.inj (hmake.symm.trans hmake')]
      | early hfront' henter hmake' =>
        exact absurd (Except.error.inj (hmake.symm.trans hmake')) hne
      | new hlast hfront' hshort henter hmake' => cases hmake.symm.trans hmake'
    have hmake' : later.makeDirectory p = .error e := by
      rw [makeDirectory_eq hf' hcp, hname.enterFront_eq hf', henter]
      rfl
    refine .error hp hne hmake' fun hd' => ?_
    obtain ⟨-, location, hp'⟩ := (isDirectory_iff_enter hw' hf').mp hd'
    rw [enter_of_components hf' hname.components, henter] at hp'
    cases hp'

/-- What has come of making the path with those above it does not change any more. -/
theorem settled (hw : tree.WellFormed) (hf : tree.LinkFree) (h : tree.BelowDirectory p)
    {steps : Nat} (hsteps : p.text.length ≤ steps) {result : Except SystemError Unit}
    (hm : tree.makeDirectoriesOf (ancestors steps p) = (made, result)) :
    made.Settled p result := by
  induction h generalizing steps made result with
  | @directory p location henter =>
    obtain ⟨above, ha⟩ := exists_ancestors steps p
    rw [ha] at hm
    by_cases hp : p.text = []
    · rw [makeDirectoriesOf, if_pos hp] at hm
      obtain ⟨-, rfl⟩ := Prod.mk.inj hm
      exact .empty hp
    · have hne : tree.makeDirectory p ≠ .error .noEntry := by
        cases hc : checkPath p with
        | error e =>
          intro hn
          obtain rfl := Except.error.inj ((makeDirectory_of_checkPath hc).symm.trans hn)
          exact checkPath_ne hp hc
        | ok u =>
          rw [makeDirectory_of_enter hf hc henter]
          decide
      rw [makeDirectoriesOf_of_ne hp hne] at hm
      exact settled_of_settle hp hne hm
  | @name p q name hp hq ih =>
    have hlength := Path.length_of_parent? hp.parent
    have hne := hp.text_ne_nil
    obtain ⟨steps, rfl⟩ : ∃ more, steps = more + 1 := ⟨steps - 1, by omega⟩
    rw [ancestors, hp.parent] at hm
    by_cases hmissing : tree.makeDirectory p = .error .noEntry
    · rw [makeDirectoriesOf_of_noEntry hne hmissing] at hm
      rcases hbetween : tree.makeDirectoriesOf (ancestors steps q) with ⟨between, came⟩
      obtain ⟨hw', hu⟩ := makeDirectoriesOf_spec hw hbetween
      have hf' := hu.linkFree hf
      have habove := ih (by omega) hbetween
      rw [hbetween] at hm
      cases came with
      | error e =>
        obtain ⟨rfl, rfl⟩ := Prod.mk.inj hm
        exact hq.settled_of_above hw hf hu hw' hp hmissing habove
      | ok u =>
        obtain ⟨location, henter⟩ := habove.exists_enter hw' hf'
        refine settled_of_settle hne (fun hn => ?_) hm
        have hfront := (enterFront_of_noEntry hf' hne hn).2
        rw [hp.enterFront_eq hf', henter] at hfront
        cases hfront
    · rw [makeDirectoriesOf_of_ne hne hmissing] at hm
      exact settled_of_settle hne hmissing hm

end BelowDirectory

end ScriptNotebook.FileTree
