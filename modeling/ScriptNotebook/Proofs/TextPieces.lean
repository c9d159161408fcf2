import ScriptNotebook.Text.Basic

/-!
Cutting at a character and joining with it are inverse to each other on pieces without that
character, and a text that is put together at a mark is cut there.  What follows the first mark
stands behind a piece without it.
-/
namespace ScriptNotebook.Text

theorem cut_cons {c mark : Char} (h : c ≠ mark) {t piece : Text} {rest : List Text}
    (ht : cut mark t = piece :: rest) : cut mark (c :: t) = (c :: piece) :: rest := by
  simp [cut, ht, h]

theorem exists_cut_eq_cons (mark : Char) (t : Text) :
    ∃ piece rest, cut mark t = piece :: rest :=
  List.exists_cons_of_ne_nil (cut_ne_nil mark t)

theorem cut_append (mark : Char) (s t : Text) :
    cut mark (s ++ mark :: t) = cut mark s ++ cut mark t := by
  induction s with
  | nil => exact cut_mark mark t
  | cons c s ih =>
    by_cases h : c = mark
    · subst h
      rw [List.cons_append, cut_mark, ih, cut_mark, List.cons_append]
    · obtain ⟨piece, rest, hs⟩ := exists_cut_eq_cons mark s
      have hc : cut mark (s ++ mark :: t) = piece :: (rest ++ cut mark t) := by rw [ih, hs]; rfl
      rw [List.cons_append, cut_cons h hc, cut_cons h hs, List.cons_append]

theorem cut_append_of_not_mem {mark : Char} {s t piece : Text} {rest : List Text} (hs : mark ∉ s)
    (ht : cut mark t = piece :: rest) : cut mark (s ++ t) = (s ++ piece) :: rest := by
  induction s with
  | nil => exact ht
  | cons c s ih =>
    rw [List.mem_cons, not_or] at hs
    exact cut_cons (Ne.symm hs.1) (ih hs.2)

theorem cut_of_not_mem {mark : Char} {t : Text} (h : mark ∉ t) : cut mark t = [t] := by
  simpa using cut_append_of_not_mem h (cut_nil mark)

theorem head?_of_cut {mark : Char} {t piece : Text} {rest : List Text}
    (h : cut mark t = piece :: rest) : piece.head? = none ∨ piece.head? = t.head? := by
  cases t with
  | nil => simp_all
  | cons c t =>
    obtain ⟨first, others, ht⟩ := exists_cut_eq_cons mark t
    by_cases hc : c = mark
    · subst hc
      rw [cut_mark] at h
      obtain ⟨rfl, -⟩ := List.cons.inj h
      exact Or.inl rfl
    · rw [cut_cons hc ht] at h
      obtain ⟨rfl, -⟩ := List.cons.inj h
      exact Or.inr rfl

theorem not_mem_of_mem_cut {mark : Char} {t piece : Text} (h : piece ∈ cut mark t) :
    mark ∉ piece := by
  induction t generalizing piece with
  | nil => simp_all
  | cons c t ih =>
    by_cases hc : c = mark
    · subst hc
      rw [cut_mark, List.mem_cons] at h
      rcases h with rfl | h
      · simp
      · exact ih h
    · obtain ⟨first, rest, ht⟩ := exists_cut_eq_cons mark t
      rw [cut_cons hc ht, List.mem_cons] at h
      rcases h with rfl | h
      · have hf : mark ∉ first := ih (by simp [ht])
        simp [Ne.symm hc, hf]
      · exact ih (by simp [ht, h])

theorem join_cons_cons (mark t u : Text) (rest : List Text) :
    join mark (t :: u :: rest) = t ++ mark ++ join mark (u :: rest) := rfl

theorem join_append_cons (mark s piece : Text) (rest : List Text) :
    join mark ((s ++ piece) :: rest) = s ++ join mark (piece :: rest) := by
  cases rest with
  | nil => rfl
  | cons u rest => simp [join_cons_cons]

theorem join_concat (mark : Text) {pieces : List Text} (hne : pieces ≠ []) (last : Text) :
    join mark (pieces ++ [last]) = join mark pieces ++ mark ++ last := by
  induction pieces with
  | nil => exact absurd rfl hne
  | cons t rest ih =>
    cases rest with
    | nil => rfl
    | cons u rest =>
      have hj : join mark (u :: (rest ++ [last])) = join mark (u :: rest) ++ mark ++ last :=
        ih (by simp)
      simp only [List.cons_append, join_cons_cons, hj, List.append_assoc]

theorem cut_join {mark : Char} {pieces : List Text} (hne : pieces ≠ [])
    (h : ∀ piece ∈ pieces, mark ∉ piece) : cut mark (join [mark] pieces) = pieces := by
  induction pieces with
  | nil => exact absurd rfl hne
  | cons t rest ih =>
    rw [List.forall_mem_cons] at h
    cases rest with
    | nil => exact cut_of_not_mem h.1
    | cons u rest =>
      rw [join_cons_cons, List.append_assoc, List.singleton_append, cut_append,
        cut_of_not_mem h.1, ih (by simp) h.2, List.singleton_append]

theorem join_cut (mark : Char) (t : Text) : join [mark] (cut mark t) = t := by
  induction t with
  | nil => rfl
  | cons c t ih =>
    obtain ⟨piece, rest, ht⟩ := exists_cut_eq_cons mark t
    rw [ht] at ih
    by_cases hc : c = mark
    · subst hc
      rw [cut_mark, ht, join_cons_cons, ih]
      rfl
    · rw [cut_cons hc ht]
      cases rest with
      | nil => simpa [join] using ih
      | cons u rest =>
        rw [join_cons_cons] at ih ⊢
        rw [List.cons_append, List.cons_append, ih]

theorem after?_singleton_cons (c d : Char) (t : Text) :
    after? [c] (d :: t) = if c = d then some t else after? [c] t := by
  by_cases h : c = d
  · cases t <;> simp [after?, strip?, h]
  · simp [after?, strip?, h]

theorem after?_singleton_of_not_mem {c : Char} {t : Text} (h : c ∉ t) : after? [c] t = none := by
  induction t with
  | nil => rfl
  | cons d t ih =>
    rw [List.mem_cons, not_or] at h
    rw [after?_singleton_cons, if_neg h.1, ih h.2]

theorem after?_singleton_append {c : Char} {front : Text} (h : c ∉ front) (rest : Text) :
    after? [c] (front ++ c :: rest) = some rest := by
  induction front with
  | nil => rw [List.nil_append, after?_singleton_cons, if_pos rfl]
  | cons d front ih =>
    rw [List.mem_cons, not_or] at h
    rw [List.cons_append, after?_singleton_cons, if_neg h.1, ih h.2]

end ScriptNotebook.Text
