import ScriptNotebook.Proofs.BatchUpdates
import ScriptNotebook.Proofs.MadeDirectories

/-!
Converting a script again.  In a tree that has come of a conversion and of more to the same effect,
contents of files apart, the conversion makes no directory, ends as it did before and writes what it
wrote then.
-/
namespace ScriptNotebook.FileTree

variable {tree made after last again : FileTree} {written : Location → Prop} {location : Location}
  {content content' : ByteArray}

/-- The tree with other contents in some of its files. -/
inductive Rewritten (tree : FileTree) : FileTree → Prop
  | refl : Rewritten tree tree
  | set {other : FileTree} {location : Location} {content : ByteArray} (h : Rewritten tree other)
      (hfile : other.find? location = some (.file content)) (content' : ByteArray) :
      Rewritten tree (other.set location (.file content'))

theorem map_fst_setEntry {entries : List (Location × Entry)} {entry : Entry}
    (h : location ∈ entries.map (·.1)) :
    (setEntry location entry entries).map (·.1) = entries.map (·.1) := by
  induction entries with
  | nil => cases h
  | cons first rest ih =>
    rw [setEntry]
    split
    · next he => rw [List.map_cons, List.map_cons, he]
    · next he =>
      rw [List.map_cons, List.mem_cons] at h
      rw [List.map_cons, List.map_cons, ih (h.resolve_left (Ne.symm he))]

namespace Rewritten

theorem updates (h : tree.Rewritten again) : Updates (fun _ => True) tree again := by
  induction h with
  | refl => exact Updates.refl tree
  | @set other location content h hfile content' ih =>
    exact ih.trans (updates_set_file (by simp [hfile]) trivial (by simp [hfile]) content')

theorem wellFormed (hw : tree.WellFormed) (h : tree.Rewritten again) : again.WellFormed := by
  induction h with
  | refl => exact hw
  | @set other location content h hfile content' ih =>
    have hd : other.find? location ≠ some .directory := by simp [hfile]
    obtain ⟨name, above, rfl⟩ := exists_cons_of_find? hd
    exact ih.set (ih.place (by simp [hfile])) hd _

theorem map_fst_entries (h : tree.Rewritten again) :
    again.entries.map (·.1) = tree.entries.map (·.1) := by
  induction h with
  | refl => rfl
  | @set other location content h hfile content' ih =>
    have hd : other.find? location ≠ some .directory := by simp [hfile]
    obtain ⟨name, above, rfl⟩ := exists_cons_of_find? hd
    rw [← ih]
    exact map_fst_setEntry (List.mem_map_of_mem (mem_of_find? hfile))

theorem eq (hw : tree.WellFormed) (h : tree.Rewritten again)
    (hfind : ∀ location, again.find? location = tree.find? location) : again = tree := by
  have hkeys := h.map_fst_entries
  have hw' := h.wellFormed hw
  have hentries : again.entries = tree.entries := by
    refine List.ext_getElem (by simpa using congrArg List.length hkeys) fun i hi hi' => ?_
    have hkey : again.entries[i].1 = tree.entries[i].1 := by
      have hat := List.getElem_of_eq hkeys (by simpa using hi)
      rwa [List.getElem_map, List.getElem_map] at hat
    have hfound : again.find? again.entries[i].1 = some again.entries[i].2 :=
      hw'.find?_of_mem (List.getElem_mem hi)
    have hfound' : tree.find? tree.entries[i].1 = some tree.entries[i].2 :=
      hw.find?_of_mem (List.getElem_mem hi')
    rw [hfind, hkey, hfound'] at hfound
    exact Prod.ext hkey (Option.some.inj hfound).symm
  have hhere : again.here = tree.here := h.updates.here
  cases again
  cases tree
  simp_all

end Rewritten

/-- Files have the contents of the last tree or those of the one before. -/
structure Between (tree last again : FileTree) : Prop where
  rewritten : last.Rewritten again
  either : ∀ location,
    again.find? location = last.find? location ∨ again.find? location = tree.find? location

namespace Between

theorem of_updates (h : tree.Between last again) (hm : Updates (fun _ => False) tree made)
    (hu : Updates written made last) : made.Between last again := by
  refine ⟨h.rewritten, fun location => (h.either location).elim Or.inl fun he => ?_⟩
  cases ht : tree.find? location with
  | none =>
    rcases hm.fresh location ht with hn | hd | ⟨hn, -⟩
    · exact Or.inr (by rw [he, ht, hn])
    · have hlast := hu.directory location hd
      exact Or.inl (by rw [hlast, h.rewritten.updates.directory location hlast])
    · exact absurd hn id
  | some entry =>
    cases entry with
    | directory => exact Or.inr (by rw [he, ht, hm.directory location ht])
    | link target => exact Or.inr (by rw [he, ht, hm.link location target ht])
    | file content =>
      obtain ⟨content', hf, hc⟩ := hm.file location content ht
      exact Or.inr (by rw [he, ht, hf, hc id])

theorem set (h : made.Between last again) (hd : made.find? location ≠ some .directory)
    (hu : Updates written (made.set location (.file content)) last) :
    again.find? location ≠ some .directory ∧
      (made.set location (.file content)).Between last
        (again.set location (.file content)) := by
  obtain ⟨name, above, rfl⟩ := exists_cons_of_find? hd
  obtain ⟨content₁, hlast, -⟩ := hu.file _ content (find?_set_self made name above _)
  obtain ⟨content₂, hagain, -⟩ := h.rewritten.updates.file _ content₁ hlast
  refine ⟨by simp [hagain], h.rewritten.set hagain content, fun other => ?_⟩
  rw [find?_set, find?_set]
  split
  · exact Or.inr rfl
  · exact h.either other

end Between

section

variable {p q : Path} {name : Text} {e : SystemError}

theorem NameIn.locate_create_ne (h : NameIn p q name) (hf : tree.LinkFree)
    (hslash : endsInSlash p = false) (hq : tree.enter q = .ok location) :
    tree.locate .create p ≠ .error .noEntry := by
  obtain ⟨steps, hs, hcounted⟩ := h.exists_steps
  rw [locate]
  cases hc : checkPath p with
  | error e =>
    intro hn
    obtain rfl : e = .noEntry := Except.error.inj hn
    exact checkPath_ne h.text_ne_nil hc
  | ok u =>
    show walkLinks tree .create maxLinks (startOf p tree.here) (walkSteps p) ≠ _
    rw [walkSteps, hslash, if_neg Bool.false_ne_true, hs, h.startOf_eq,
      walkLinks_append_eq hf (by simp) (by simp) hcounted, hq]
    show walk tree .create noLink location [.name name] ≠ _
    rw [walk]
    split
    · decide
    · split
      · decide
      · split
        · simp [walk]
        · simp [noLink]; decide
        · simp
        · simp

theorem Updates.writeBytes_error (h : Updates written made again)
    (hne : made.locate .create p ≠ .error .noEntry)
    (hm : made.writeBytes p content = .error e) : again.writeBytes p content = .error e := by
  rw [writeBytes] at hm ⊢
  rw [h.locate_eq hne]
  cases hl : made.locate .create p with
  | error e' =>
    rw [hl] at hm
    obtain rfl : e' = e := Except.error.inj hm
    rfl
  | ok location =>
    simp only [hl, bind, Except.bind] at hm ⊢
    cases hfind : made.find? location with
    | none => simp [hfind] at hm
    | some entry =>
      cases entry with
      | directory =>
        rw [hfind] at hm
        rw [h.directory location hfind]
        exact hm
      | link target => simp [hfind] at hm
      | file content => simp [hfind] at hm

theorem Updates.writeNotebook_error (h : Updates written made again)
    (hne : made.locate .create p ≠ .error .noEntry) {notebook : Notebook} {writer : Writer}
    {failure : Failure} (hm : made.writeNotebook p notebook writer = .error failure) :
    again.writeNotebook p notebook writer = .error failure := by
  rw [writeNotebook] at hm ⊢
  cases hr : writer.render notebook with
  | error failure' => rwa [hr] at hm
  | ok text =>
    rw [hr] at hm
    cases hw : made.writeText p text with
    | ok after =>
      replace hm : (made.writeText p text).mapError (Failure.file p) = .error failure := hm
      simp [hw, Except.mapError] at hm
    | error cause =>
      replace hm : (made.writeText p text).mapError (Failure.file p) = .error failure := hm
      show (again.writeText p text).mapError (Failure.file p) = .error failure
      rw [← hm, hw, writeText, h.writeBytes_error hne hw]

theorem Between.writeBytes (h : made.Between last again) (hf : made.LinkFree)
    (hm : made.writeBytes p content = .ok after) (hu : Updates (fun _ => True) after last) :
    ∃ after', again.writeBytes p content = .ok after' ∧ after.Between last after' := by
  obtain ⟨place, hl, hd, rfl⟩ := writeBytes_ok hm
  have hset : Updates (fun _ => True) made (made.set place (.file content)) :=
    updates_set_file (hf place) trivial hd content
  obtain ⟨hd', hb'⟩ := h.set hd hu
  refine ⟨_, ?_, hb'⟩
  rw [FileTree.writeBytes, ((hset.trans hu).trans h.rewritten.updates).locate_ok hl]
  dsimp only [bind, Except.bind]
  split
  · next hfind => exact absurd hfind hd'
  · rfl

theorem Between.writeNotebook (h : made.Between last again) (hf : made.LinkFree)
    {notebook : Notebook} {writer : Writer} (hm : made.writeNotebook p notebook writer = .ok after)
    (hu : Updates (fun _ => True) after last) :
    ∃ after', again.writeNotebook p notebook writer = .ok after' ∧ after.Between last after' := by
  obtain ⟨text, hrender, htext⟩ := bind_eq_ok.mp hm
  obtain ⟨after', hafter, hb⟩ := h.writeBytes hf (mapError_eq_ok.mp htext) hu
  exact ⟨after', bind_eq_ok.mpr ⟨text, hrender, mapError_eq_ok.mpr hafter⟩, hb⟩

theorem NameIn.madeFor_again (h : NameIn p q name) (hw : tree.WellFormed) (hf : tree.LinkFree)
    (hq : tree.BelowDirectory q) {came : Except SystemError Unit}
    (hm : tree.madeFor p = (made, came)) :
    made.Settled q came ∧ made.WellFormed ∧ Updates (fun _ => False) tree made ∧
      ∀ later : FileTree, later.WellFormed → Updates (fun _ => True) made later →
        later.madeFor p = (later, came) := by
  simp only [madeFor, h.parent] at hm ⊢
  obtain ⟨hw', hu⟩ := makeDirectoriesOf_spec hw hm
  have hsettled : made.Settled q came := hq.settled hw hf le_rfl hm
  have hf' := hu.linkFree hf
  refine ⟨hsettled, hw', hu, fun later hlater hupdates => ?_⟩
  exact (hsettled.stays hw' hf' hupdates hlater).makeDirectories hlater (hupdates.linkFree hf')

/-- A conversion that is made again ends as it did, identifiers and all, and comes to a tree that is
on its way to the last one. -/
theorem NameIn.convertFile_again (h : NameIn p q name) (hw : tree.WellFormed) (hf : tree.LinkFree)
    (hslash : endsInSlash p = false) (hq : tree.BelowDirectory q) {input : Path}
    (hread : again.readText input = tree.readText input) {ids left : IdSupply}
    {metadata : NotebookMetadata} {writer : Writer} {result : Except Failure ConvertedFile}
    (hc : tree.convertFile ids input p metadata writer = (after, left, result))
    (hu : Updates (fun _ => True) after last) (hlast : last.WellFormed)
    (hb : tree.Between last again) :
    ∃ after', again.convertFile ids input p metadata writer = (after', left, result) ∧
      after.Between last after' := by
  have hagain := hb.rewritten.wellFormed hlast
  cases hr : tree.readText input with
  | error cause =>
    rw [hr] at hread
    rw [convertFile, hr] at hc
    obtain ⟨rfl, hrest⟩ := Prod.mk.inj hc
    exact ⟨again, by rw [convertFile, hread, ← hrest], hb⟩
  | ok source =>
    rw [hr] at hread
    rcases hn : Notebook.ofSource metadata source ids with ⟨notebook, left'⟩
    rcases hm : tree.madeFor p with ⟨made, came⟩
    obtain ⟨hsettled, hw', hum, hmade⟩ := h.madeFor_again hw hf hq hm
    have hf' := hum.linkFree hf
    rw [convertFile_eq hr hn, hm] at hc
    rw [convertFile_eq hread hn]
    cases came with
    | error cause =>
      obtain ⟨rfl, hrest⟩ := Prod.mk.inj hc
      rw [hmade again hagain (hu.trans hb.rewritten.updates)]
      exact ⟨again, Prod.ext rfl hrest, hb.of_updates hum hu⟩
    | ok u =>
      obtain ⟨location, henter⟩ := hsettled.exists_enter hw' hf'
      have hplace := h.locate_create_ne hf' hslash henter
      cases hwrite : made.writeNotebook p notebook writer with
      | error failure =>
        simp only [hwrite] at hc
        obtain ⟨rfl, hrest⟩ := Prod.mk.inj hc
        have hall := hu.trans hb.rewritten.updates
        rw [hmade again hagain hall]
        simp only [hall.writeNotebook_error hplace hwrite]
        exact ⟨again, Prod.ext rfl hrest, hb.of_updates hum hu⟩
      | ok written =>
        simp only [hwrite] at hc
        obtain ⟨rfl, hrest⟩ := Prod.mk.inj hc
        have hwritten : Updates (fun _ => True) made written := by
          obtain ⟨text, -, htext⟩ := bind_eq_ok.mp hwrite
          exact (writeBytes_updates hw' (mapError_eq_ok.mp htext)).1.mono fun _ _ => trivial
        have hall := (hwritten.trans hu).trans hb.rewritten.updates
        obtain ⟨after', hafter, hb'⟩ :=
          (hb.of_updates hum (hwritten.trans hu)).writeNotebook hf' hwrite hu
        rw [hmade again hagain hall]
        simp only [hafter]
        exact ⟨after', Prod.ext rfl hrest, hb'⟩

end

end ScriptNotebook.FileTree
