import ScriptNotebook.Proofs.CollectedTargets
import ScriptNotebook.Proofs.TextOrder

/-!
Paths in order.  The order is a strict one that tells apart all paths with different components, so
that paths which differ in their components can be put in order in one way only.
-/
namespace ScriptNotebook.Path

theorem Component.before_trans {a b c : Component} (h : a.before b = true)
    (h' : b.before c = true) : a.before c = true := by
  cases a <;> cases b <;> cases c <;> simp_all [Component.before, Component.rank]
  exact Text.before_trans h h'

theorem Component.before_of_not_before {a b : Component} (hne : a ≠ b) (h : ¬ a.before b = true) :
    b.before a = true := by
  cases a <;> cases b <;> simp_all [Component.before, Component.rank]
  exact Text.before_of_not_before hne (by simp [h])

@[simp] theorem Component.before_self (a : Component) : a.before a = false := by
  cases a <;> simp [Component.before]

theorem componentsBefore_iff_lex {s t : List Component} :
    componentsBefore s t = true ↔ List.Lex (fun a b => a.before b = true) s t := by
  induction s generalizing t with
  | nil => cases t <;> simp [componentsBefore]
  | cons a s ih =>
    cases t with
    | nil => simp [componentsBefore]
    | cons b t =>
      rw [componentsBefore, List.cons_lex_cons_iff]
      split
      · next h => simp [h, ih]
      · next h => simp [h]

theorem before_trans {p q r : Path} (h : p.before q = true) (h' : q.before r = true) :
    p.before r = true := by
  rw [before, componentsBefore_iff_lex] at h h' ⊢
  exact List.lex_trans Component.before_trans h h'

theorem before_self (p : Path) : p.before p = false := by
  rw [← Bool.not_eq_true, before, componentsBefore_iff_lex]
  exact List.lex_irrefl (by simp) _

theorem before_of_not_before {p q : Path} (hne : p.components ≠ q.components)
    (h : ¬ p.before q = true) : q.before p = true := by
  have hcomponent : Std.Trichotomous fun a b : Component => a.before b = true := by
    refine ⟨fun a b hab hba => ?_⟩
    by_contra hn
    exact hba (Component.before_of_not_before hn hab)
  rw [before, componentsBefore_iff_lex] at h ⊢
  by_contra h'
  exact hne (Std.Trichotomous.trichotomous p.components q.components h h')

/-- Each path is before all that follow it. -/
def InOrder (paths : List Path) : Prop := paths.Pairwise fun p q => p.before q = true

theorem InOrder.insert {p : Path} {paths : List Path} (h : InOrder paths)
    (hp : ∀ q ∈ paths, p.components ≠ q.components) : InOrder (insert p paths) := by
  induction paths with
  | nil => exact List.pairwise_singleton _ p
  | cons q rest ih =>
    obtain ⟨hq, hrest⟩ := List.pairwise_cons.mp h
    obtain ⟨hpq, hp⟩ := List.forall_mem_cons.mp hp
    rw [Path.insert]
    split
    · next hb =>
      refine List.pairwise_cons.mpr ⟨fun r hr => ?_, ih hrest hp⟩
      rcases List.mem_cons.mp ((insert_perm p rest).mem_iff.mp hr) with rfl | hr
      · exact hb
      · exact hq r hr
    · next hb =>
      have hpq : p.before q = true := before_of_not_before (Ne.symm hpq) hb
      exact List.pairwise_cons.mpr ⟨List.forall_mem_cons.mpr
        ⟨hpq, fun r hr => before_trans hpq (hq r hr)⟩, h⟩

theorem inOrder_sort {paths : List Path}
    (h : paths.Pairwise fun p q => p.components ≠ q.components) : InOrder (sort paths) := by
  induction paths with
  | nil => exact List.Pairwise.nil
  | cons p paths ih =>
    obtain ⟨hp, hrest⟩ := List.pairwise_cons.mp h
    exact (ih hrest).insert fun q hq => hp q ((sort_perm paths).mem_iff.mp hq)

theorem InOrder.nodup {paths : List Path} (h : InOrder paths) : paths.Nodup := by
  refine h.imp ?_
  rintro p q hpq rfl
  simp [before_self] at hpq

/-- Paths have one order at most. -/
theorem InOrder.eq_of_mem_iff {paths paths' : List Path} (h : InOrder paths)
    (h' : InOrder paths') (hm : ∀ p, p ∈ paths ↔ p ∈ paths') : paths = paths' := by
  refine List.Perm.eq_of_pairwise (fun p q _ _ hpq hqp => ?_) h h'
    ((List.perm_ext_iff_of_nodup h.nodup h'.nodup).mpr hm)
  simpa [before_self] using before_trans hpq hqp

end ScriptNotebook.Path
