import Mathlib.Logic.Relation
import ScriptNotebook.Proofs.BatchReports
import ScriptNotebook.Proofs.ContinuedWalks

/-!
Which directories appear in a tree.  Making a path with those above it takes only locations that
these paths lead to from then on.  Without links they are the landings of the paths, so that a batch
makes directories for the ancestors of its outputs alone.
-/
namespace ScriptNotebook

/-- One gets from a path to the other by taking parents, once at least. -/
def Path.Below (p q : Path) : Prop := Relation.TransGen (fun s t => s.parent? = some t) p q

namespace FileTree

variable {tree after : FileTree} {p q : Path}

theorem mem_ancestors {steps : Nat} (h : q ∈ ancestors steps p) : q = p ∨ p.Below q := by
  induction steps generalizing p with
  | zero => exact Or.inl (List.mem_singleton.mp h)
  | succ steps ih =>
    rcases List.mem_cons.mp h with rfl | h
    · exact Or.inl rfl
    · cases hp : p.parent? with
      | none => simp [hp] at h
      | some above =>
        rw [hp] at h
        have hone : p.Below above := Relation.TransGen.single hp
        rcases ih h with rfl | habove
        · exact Or.inr hone
        · exact Or.inr (hone.trans habove)

/-- The directories that have come stand at allowed locations. -/
def NewDirectories (allowed : Location → Prop) (before after : FileTree) : Prop :=
  ∀ location, after.find? location = some .directory →
    before.find? location = some .directory ∨ allowed location

namespace NewDirectories

variable {allowed allowed' : Location → Prop} {before middle : FileTree}

theorem refl (tree : FileTree) : NewDirectories allowed tree tree := fun _ h => Or.inl h

theorem trans (h : NewDirectories allowed before middle)
    (h' : NewDirectories allowed middle after) : NewDirectories allowed before after := by
  intro location hd
  rcases h' location hd with hd | ha
  · exact h location hd
  · exact Or.inr ha

theorem mono (h : NewDirectories allowed before after)
    (ha : ∀ location, allowed location → allowed' location) :
    NewDirectories allowed' before after := by
  intro location hd
  exact (h location hd).imp_right (ha location)

end NewDirectories

theorem makeDirectory_newDirectories {allowed : Location → Prop}
    (ha : ∀ location, after.LeadsTo p location → allowed location)
    (h : tree.makeDirectory p = .ok after) : NewDirectories allowed tree after := by
  obtain ⟨name, above, -, rfl, hl⟩ := makeDirectory_ok h
  intro location hd
  rw [find?_set] at hd
  split at hd
  · next he => exact Or.inr (ha location (he ▸ hl))
  · exact Or.inl hd

/-- Making directories for a path takes locations that the path and those above it then lead to. -/
theorem makeDirectories_newDirectories (tree : FileTree) (p : Path) :
    NewDirectories
      (fun location => ∃ q, (q = p ∨ p.Below q) ∧ (tree.makeDirectories p).1.LeadsTo q location)
      tree (tree.makeDirectories p).1 := by
  let reached (made : FileTree) (location : Location) : Prop :=
    ∃ q, (q = p ∨ p.Below q) ∧ made.LeadsTo q location
  -- Where a path has led while directories are made, it leads until the end.
  have hstep : ∀ made, ∀ q ∈ ancestors p.text.length p, ∀ next,
      NewDirectories (reached made) tree made → made.makeDirectory q = .ok next →
      NewDirectories (reached next) tree next := by
    intro made q hq next hmade hm
    have hu : Updates (fun _ => False) made next := makeDirectory_updates hm
    have hstays : ∀ location, reached made location → reached next location :=
      fun _ ⟨q', hq', hl⟩ => ⟨q', hq', hu.locate_ok hl⟩
    exact (hmade.mono hstays).trans
      (makeDirectory_newDirectories (fun _ hl => ⟨q, mem_ancestors hq, hl⟩) hm)
  exact makeDirectoriesOf_preserves hstep (NewDirectories.refl tree)

theorem writeBytes_newDirectories {allowed : Location → Prop} {content : ByteArray}
    (h : tree.writeBytes p content = .ok after) : NewDirectories allowed tree after := by
  obtain ⟨location, -, hd, rfl⟩ := writeBytes_ok h
  obtain ⟨name, above, rfl⟩ := exists_cons_of_find? hd
  intro other ho
  rw [find?_set] at ho
  split at ho
  · cases ho
  · exact Or.inl ho

theorem convertFile_newDirectories (hf : tree.LinkFree) (ids : IdSupply) (input output : Path)
    (metadata : NotebookMetadata) (writer : Writer) :
    NewDirectories (fun location => ∃ q, output.Below q ∧ location = q.landing tree.here) tree
      (tree.convertFile ids input output metadata writer).1 := by
  have hmade : NewDirectories
      (fun location => ∃ q, output.Below q ∧ location = q.landing tree.here) tree
      (tree.madeFor output).1 := by
    rw [madeFor]
    cases hp : output.parent? with
    | none => exact NewDirectories.refl tree
    | some directory =>
      have hu : Updates (fun _ => False) tree (tree.makeDirectories directory).1 :=
        makeDirectories_updates tree directory
      refine (makeDirectories_newDirectories tree directory).mono ?_
      rintro location ⟨q, hq, hl⟩
      have hone : output.Below directory := Relation.TransGen.single hp
      refine ⟨q, ?_, by rw [locate_eq_landing (hu.linkFree hf) hl, hu.here]⟩
      rcases hq with rfl | hq
      · exact hone
      · exact hone.trans hq
  rcases convertFile_cases tree ids input output metadata writer with
    ⟨cause, -, hc⟩ | ⟨source, notebook, left, -, -, ⟨failure, hc⟩ | ⟨text, after, -, hw, hc⟩⟩
  · rw [hc]
    exact NewDirectories.refl tree
  · rw [hc]
    exact hmade
  · rw [hc]
    exact hmade.trans (writeBytes_newDirectories hw)

end FileTree

end ScriptNotebook
