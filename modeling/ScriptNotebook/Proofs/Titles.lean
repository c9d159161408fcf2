import ScriptNotebook.Marker
import ScriptNotebook.Proofs.TextPieces
import ScriptNotebook.Proofs.Trimming

/-!
Titles of lines.  A title stands behind the first comma of its line, with decoration around it: hash
signs, double quotes and white space in front, quotes and white space behind.  What is left without
the decoration is the only text that can stand so and has none of its own, and it is nothing just
when there is nothing but decoration.
-/
namespace ScriptNotebook

/-- A title without decoration of its own. -/
structure IsTitle (title : Text) : Prop where
  head : ∀ c ∈ title.head?, c ≠ '#' ∧ c ≠ '"' ∧ isBlankChar c = false
  last : ∀ c ∈ title.getLast?, c ≠ '"' ∧ isBlankChar c = false

instance (title : Text) : Decidable (IsTitle title) :=
  -- By name: what is found for a quantifier over characters may run through all of them.
  have hh : Decidable (∀ c ∈ title.head?, c ≠ '#' ∧ c ≠ '"' ∧ isBlankChar c = false) :=
    Option.decidableForallMem _
  have hl : Decidable (∀ c ∈ title.getLast?, c ≠ '"' ∧ isBlankChar c = false) :=
    Option.decidableForallMem _
  @decidable_of_iff _ _ ⟨fun ⟨hh, hl⟩ => ⟨hh, hl⟩, fun h => ⟨h.head, h.last⟩⟩
    (@instDecidableAnd _ _ hh hl)

def isFrontDecoration (c : Char) : Bool := c == '#' || c == '"' || isBlankChar c

/-- What decorates a title behind; hash signs there are the title's own. -/
def isBackDecoration (c : Char) : Bool := c == '"' || isBlankChar c

/-- The text is the title with decoration around it. -/
structure Decorates (text title : Text) : Prop where
  around : ∃ front back, text = front ++ title ++ back ∧
    (∀ c ∈ front, isFrontDecoration c = true) ∧ ∀ c ∈ back, isBackDecoration c = true
  bare : IsTitle title

def undecorated (text : Text) : Text :=
  dropEndWhile isBackDecoration (text.dropWhile isFrontDecoration)

variable {text title : Text}

theorem isFrontDecoration_of_back {c : Char} (h : isBackDecoration c = true) :
    isFrontDecoration c = true := by
  rw [isFrontDecoration, Bool.or_assoc]
  exact Bool.or_eq_true_iff.mpr (.inr h)

theorem isFrontDecoration_eq_false_iff {c : Char} :
    isFrontDecoration c = false ↔ c ≠ '#' ∧ c ≠ '"' ∧ isBlankChar c = false := by
  simp [isFrontDecoration, and_assoc]

theorem isBackDecoration_eq_false_iff {c : Char} :
    isBackDecoration c = false ↔ c ≠ '"' ∧ isBlankChar c = false := by
  simp [isBackDecoration]

/-- Between the decoration of a text stands what is left without it. -/
theorem decorates_undecorated (text : Text) : Decorates text (undecorated text) := by
  obtain ⟨hhead, hlast⟩ := edges_dropEndWhile isFrontDecoration isBackDecoration text
  exact ⟨exists_append_dropEndWhile isFrontDecoration isBackDecoration text,
    fun c hc => isFrontDecoration_eq_false_iff.mp (hhead c hc),
    fun c hc => isBackDecoration_eq_false_iff.mp (hlast c hc)⟩

theorem Decorates.forall_of_nil (h : Decorates text []) :
    ∀ c ∈ text, isFrontDecoration c = true := by
  obtain ⟨front, back, rfl, hfront, hback⟩ := h.around
  rw [List.append_nil, List.forall_mem_append]
  exact ⟨hfront, fun c hc => isFrontDecoration_of_back (hback c hc)⟩

theorem undecorated_eq_nil_iff :
    undecorated text = [] ↔ ∀ c ∈ text, isFrontDecoration c = true := by
  constructor
  · intro h
    have hd := decorates_undecorated text
    rw [h] at hd
    exact hd.forall_of_nil
  · intro h
    rw [undecorated, List.dropWhile_eq_nil_iff.mpr h]
    rfl

/-- Nothing else can stand between the decoration of a text. -/
theorem Decorates.undecorated_eq (h : Decorates text title) : undecorated text = title := by
  by_cases hne : title = []
  · subst hne
    exact undecorated_eq_nil_iff.mpr h.forall_of_nil
  · obtain ⟨front, back, rfl, hfront, hback⟩ := h.around
    exact dropEndWhile_dropWhile_append hfront hback hne
      (fun c hc => isFrontDecoration_eq_false_iff.mpr (h.bare.head c hc))
      fun c hc => isBackDecoration_eq_false_iff.mpr (h.bare.last c hc)

theorem IsTitle.decorates (h : IsTitle title) : Decorates title title :=
  ⟨⟨[], [], by simp⟩, h⟩

variable {front rest line : Text}

theorem titleText?_of_not_mem (h : ',' ∉ line) : titleText? line = none := by
  rw [titleText?, Text.after?_singleton_of_not_mem h]
  rfl

theorem titleText?_append (h : ',' ∉ front) (rest : Text) :
    titleText? (front ++ ',' :: rest) =
      if undecorated rest = [] then none else some (undecorated rest) := by
  rw [titleText?, Text.after?_singleton_append h]
  rfl

theorem titleText?_of_decorates (h : ',' ∉ front) (hd : Decorates rest title) (hne : title ≠ []) :
    titleText? (front ++ ',' :: rest) = some title := by
  rw [titleText?_append h, hd.undecorated_eq, if_neg hne]

theorem titleText?_eq_none_iff :
    titleText? line = none ↔
      ',' ∉ line ∨
        ∃ front rest, line = front ++ ',' :: rest ∧ ',' ∉ front ∧
          ∀ c ∈ rest, isFrontDecoration c = true := by
  constructor
  · intro h
    by_cases hc : ',' ∈ line
    · obtain ⟨front, rest, rfl, hfront⟩ := List.eq_append_cons_of_mem hc
      refine .inr ⟨front, rest, rfl, hfront, undecorated_eq_nil_iff.mp ?_⟩
      by_contra hne
      simp [titleText?_append hfront, hne] at h
    · exact .inl hc
  · rintro (hc | ⟨front, rest, rfl, hfront, hrest⟩)
    · exact titleText?_of_not_mem hc
    · rw [titleText?_append hfront, if_pos (undecorated_eq_nil_iff.mpr hrest)]

theorem exists_decorates_of_titleText? (h : titleText? line = some title) :
    ∃ front rest, line = front ++ ',' :: rest ∧ ',' ∉ front ∧ Decorates rest title ∧
      title ≠ [] := by
  by_cases hc : ',' ∈ line
  · obtain ⟨front, rest, rfl, hfront⟩ := List.eq_append_cons_of_mem hc
    rw [titleText?_append hfront] at h
    split at h
    · cases h
    · next hne =>
      obtain rfl := Option.some.inj h
      exact ⟨front, rest, rfl, hfront, decorates_undecorated rest, hne⟩
  · rw [titleText?_of_not_mem hc] at h
    cases h

/-- A line has a title unless it has no comma or only decoration behind the first one.  The title is
the one text without decoration of its own that stands between the decoration there, and behind a
comma it is its own title. -/
theorem titleText?_undecorated (line : Text) :
    (titleText? line = none ↔
      ',' ∉ line ∨
        ∃ front rest, line = front ++ ',' :: rest ∧ ',' ∉ front ∧
          ∀ c ∈ rest, isFrontDecoration c = true) ∧
      ∀ title, titleText? line = some title →
        (∃ front rest, line = front ++ ',' :: rest ∧ ',' ∉ front ∧ Decorates rest title ∧
          ∀ other, Decorates rest other → other = title) ∧
        titleText? (',' :: title) = some title := by
  refine ⟨titleText?_eq_none_iff, fun title h => ?_⟩
  obtain ⟨front, rest, hline, hfront, hd, hne⟩ := exists_decorates_of_titleText? h
  refine ⟨⟨front, rest, hline, hfront, hd, fun other hother => ?_⟩, ?_⟩
  · rw [← hother.undecorated_eq, hd.undecorated_eq]
  · exact titleText?_of_decorates List.not_mem_nil hd.bare.decorates hne

/-- A title with a comma, quotes and a hash sign of its own, and decoration in any order. -/
theorem titleText?_undecorated_mixed :
    let line : Text := "# DBTITLE 1, \"\u3000# \"Load\" a, b #\" \"".toList
    let title : Text := "Load\" a, b #".toList
    titleText? line = some title ∧ titleText? (',' :: title) = some title ∧
      titleText? "# DBTITLE 1,# \" #\"".toList = none := by
  intro line title
  have hline : titleText? line = some title := by decide
  exact ⟨hline, ((titleText?_undecorated line).2 title hline).2, by decide⟩

end ScriptNotebook
