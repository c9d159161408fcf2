import Mathlib.Data.List.DropRight
import ScriptNotebook.Text.Blank

/-!
Trimmed edges as a slice.  What is left of a list without the members at its ends that satisfy a
test is the piece from the first to the last member that fails it.
-/
namespace ScriptNotebook

/-- The members from the first to the last one that satisfies `p`. -/
def fromFirstToLast {α : Type} (p : α → Bool) (l : List α) : List α :=
  (l.take (l.length - l.reverse.findIdx p)).drop (l.findIdx p)

theorem dropEndWhile_eq_rdropWhile {α : Type} (p : α → Bool) (l : List α) :
    dropEndWhile p l = l.rdropWhile p := by
  induction l with
  | nil => rfl
  | cons a l ih =>
    rw [dropEndWhile, ih, List.rdropWhile, List.rdropWhile, List.reverse_cons,
      List.dropWhile_append]
    cases h : l.reverse.dropWhile p with
    | nil => by_cases ha : p a = true <;> simp [ha]
    | cons b r =>
      obtain ⟨c, s, hs⟩ := List.exists_cons_of_ne_nil
        (List.reverse_ne_nil_iff.mpr (List.cons_ne_nil b r))
      have hr : ((b :: r) ++ [a]).reverse = a :: c :: s := by rw [List.reverse_append, hs]; rfl
      rw [hs, List.isEmpty_cons, if_neg Bool.false_ne_true, hr]

theorem rdropWhile_eq_take {α : Type} (p : α → Bool) (l : List α) :
    l.rdropWhile p = l.take (l.length - l.reverse.findIdx (!p ·)) := by
  rw [List.rdropWhile, List.dropWhile_eq_drop_findIdx_not, List.reverse_drop]
  simp

theorem rdropWhile_drop {α : Type} (p : α → Bool) (l : List α) (n : Nat) :
    (l.drop n).rdropWhile p = (l.rdropWhile p).drop n := by
  have hk : l.reverse.findIdx (!p ·) =
      ((l.drop n).reverse ++ (l.take n).reverse).findIdx (!p ·) := by
    rw [← List.reverse_append, List.take_append_drop]
  rw [List.findIdx_append] at hk
  rw [rdropWhile_eq_take, rdropWhile_eq_take, List.drop_take, hk]
  congr 1
  simp only [List.length_drop, List.length_reverse]
  split
  · omega
  · next h =>
    have hle : (l.drop n).reverse.findIdx (!p ·) ≤ (l.drop n).reverse.length :=
      List.findIdx_le_length
    simp only [List.length_reverse, List.length_drop] at h hle
    omega

theorem trimEdges_eq_fromFirstToLast {α : Type} (p : α → Bool) (l : List α) :
    trimEdges p l = fromFirstToLast (!p ·) l := by
  rw [trimEdges, dropEndWhile_eq_rdropWhile, List.dropWhile_eq_drop_findIdx_not,
    rdropWhile_drop, rdropWhile_eq_take, fromFirstToLast]

example : fromFirstToLast (!Text.isBlank ·) (["", "a", " ", "b", "\t"].map String.toList)
    = ["a", " ", "b"].map String.toList := by decide

/-- Members put around a list are trimmed away again if the list has its own edges. -/
theorem dropEndWhile_dropWhile_append {α : Type} {p q : α → Bool} {front l back : List α}
    (hf : ∀ a ∈ front, p a = true) (hb : ∀ a ∈ back, q a = true) (hne : l ≠ [])
    (hp : ∀ a ∈ l.head?, p a = false) (hq : ∀ a ∈ l.getLast?, q a = false) :
    dropEndWhile q ((front ++ l ++ back).dropWhile p) = l := by
  have hback : (l ++ back).rdropWhile q = l.rdropWhile q := by
    induction back using List.reverseRecOn with
    | nil => rw [List.append_nil]
    | append_singleton back b ih =>
      rw [← List.append_assoc, List.rdropWhile_concat_pos _ _ _ (hb b (by simp))]
      exact ih fun a ha => hb a (by simp [ha])
  have hfront : (front ++ l ++ back).dropWhile p = l ++ back := by
    obtain ⟨a, rest, rfl⟩ := List.exists_cons_of_ne_nil hne
    have ha : p a = false := hp a rfl
    rw [List.append_assoc, List.dropWhile_append_of_pos hf, List.cons_append,
      List.dropWhile_cons_of_neg (by simp [ha])]
  rw [hfront, dropEndWhile_eq_rdropWhile, hback, List.rdropWhile_eq_self_iff]
  intro hl
  rw [hq _ (List.getLast?_eq_some_getLast hl)]
  exact Bool.false_ne_true

theorem trimEdges_eq_dropWhile {α : Type} (p : α → Bool) (l : List α) :
    trimEdges p l = (dropEndWhile p l).dropWhile p := by
  rw [trimEdges]
  induction l with
  | nil => rfl
  | cons a l ih =>
    by_cases ha : p a = true
    · rw [List.dropWhile_cons_of_pos ha, ih, dropEndWhile]
      cases dropEndWhile p l <;> simp [ha]
    · rw [List.dropWhile_cons_of_neg ha, dropEndWhile]
      cases dropEndWhile p l <;> simp [ha]

/-- A list that differs at the end only in members that are dropped there may stand behind another
one. -/
theorem dropEndWhile_append_congr {α : Type} {p : α → Bool} {l m : List α}
    (h : dropEndWhile p l = dropEndWhile p m) (front : List α) :
    dropEndWhile p (front ++ l) = dropEndWhile p (front ++ m) := by
  induction front with
  | nil => exact h
  | cons a front ih => rw [List.cons_append, List.cons_append, dropEndWhile, dropEndWhile, ih]

theorem exists_append_dropEndWhile {α : Type} (p q : α → Bool) (l : List α) :
    ∃ front back, l = front ++ dropEndWhile q (l.dropWhile p) ++ back ∧
      (∀ a ∈ front, p a = true) ∧ ∀ a ∈ back, q a = true := by
  refine ⟨l.takeWhile p, (l.dropWhile p).rtakeWhile q, ?_, fun a => List.mem_takeWhile_imp,
    fun a => List.mem_rtakeWhile_imp⟩
  rw [dropEndWhile_eq_rdropWhile, List.append_assoc, List.rdropWhile_append_rtakeWhile,
    List.takeWhile_append_dropWhile]

theorem edges_dropEndWhile {α : Type} (p q : α → Bool) (l : List α) :
    (∀ a ∈ (dropEndWhile q (l.dropWhile p)).head?, p a = false) ∧
      ∀ a ∈ (dropEndWhile q (l.dropWhile p)).getLast?, q a = false := by
  rw [dropEndWhile_eq_rdropWhile]
  constructor
  · intro a ha
    obtain ⟨rest, hrest⟩ := List.rdropWhile_prefix q (l.dropWhile p)
    have hhead : (l.dropWhile p).head? = some a := by
      rw [← hrest, List.head?_append, Option.mem_def.mp ha]
      rfl
    simpa [hhead] using List.head?_dropWhile_not p l
  · intro a ha
    obtain ⟨hne, rfl⟩ := List.mem_getLast?_eq_getLast ha
    simpa using List.rdropWhile_last_not q _ hne

@[simp] theorem trimEdges_trimEdges {α : Type} (p : α → Bool) (l : List α) :
    trimEdges p (trimEdges p l) = trimEdges p l := by
  by_cases hne : trimEdges p l = []
  · rw [hne]
    rfl
  · obtain ⟨hhead, hlast⟩ := edges_dropEndWhile p p l
    have h := @dropEndWhile_dropWhile_append α p p [] _ [] (by simp) (by simp) hne hhead hlast
    rwa [List.nil_append, List.append_nil] at h

end ScriptNotebook
