import ScriptNotebook.Proofs.OrderedDocument

/-!
Writers as an ordered choice.  However fallbacks are nested, a writer tries its leaves from left to
right: the text is that of the first one that succeeds, and where all fail, the failure is that of
the last one.  The structured writer fails by its check alone, the plain one never.
-/
namespace ScriptNotebook

namespace Writer

variable {writer first second : Writer} {notebook : Notebook} {text : Text} {failure : Failure}

/-- The writers that are tried, in order. -/
def leaves : Writer → List Writer
  | structured => [structured]
  | plain => [plain]
  | fallback first second => first.leaves ++ second.leaves

def Fails (writer : Writer) (notebook : Notebook) : Prop :=
  ∃ failure, writer.render notebook = .error failure

theorem structured_or_plain_of_mem_leaves {leaf : Writer} (h : leaf ∈ writer.leaves) :
    leaf = structured ∨ leaf = plain := by
  induction writer with
  | structured => exact Or.inl (List.mem_singleton.mp h)
  | plain => exact Or.inr (List.mem_singleton.mp h)
  | fallback first second ih ih' =>
    rcases List.mem_append.mp h with h | h
    · exact ih h
    · exact ih' h

theorem render_structured_eq_error_iff :
    structured.render notebook = .error failure ↔
      ∃ cause, notebook.validate = .error cause ∧ failure = .validation cause := by
  cases hv : notebook.validate with
  | error cause =>
    rw [render, hv]
    simp [eq_comm]
  | ok =>
    rw [render_structured hv]
    simp

theorem not_fails_plain (notebook : Notebook) : ¬ plain.Fails notebook := by
  rintro ⟨failure, h⟩
  rw [render_plain] at h
  cases h

theorem fails_iff_toOption : writer.Fails notebook ↔ (writer.render notebook).toOption = none := by
  rw [Fails]
  cases writer.render notebook <;> simp [Except.toOption]

theorem render_fallback_eq_error_iff :
    (fallback first second).render notebook = .error failure ↔
      first.Fails notebook ∧ second.render notebook = .error failure := by
  rw [render, Fails]
  cases first.render notebook <;> simp

/-- The text of a writer is the first that its leaves give. -/
theorem toOption_render (writer : Writer) (notebook : Notebook) :
    (writer.render notebook).toOption =
      writer.leaves.findSome? fun leaf => (leaf.render notebook).toOption := by
  induction writer with
  | structured => simp [leaves]
  | plain => simp [leaves]
  | fallback first second ih ih' =>
    rw [leaves, List.findSome?_append, ← ih, ← ih', render]
    cases first.render notebook with
    | ok text => rfl
    | error failure => rfl

theorem render_eq_ok_iff :
    writer.render notebook = .ok text ↔
      ∃ front leaf back, writer.leaves = front ++ leaf :: back ∧
        (∀ earlier ∈ front, earlier.Fails notebook) ∧ leaf.render notebook = .ok text := by
  have hok : ∀ w : Writer, w.render notebook = .ok text ↔
      (w.render notebook).toOption = some text := by
    intro w
    cases w.render notebook <;> simp [Except.toOption]
  rw [hok, toOption_render, List.findSome?_eq_some_iff]
  simp only [hok, fails_iff_toOption]
  constructor
  · rintro ⟨front, leaf, back, hl, ht, hf⟩
    exact ⟨front, leaf, back, hl, hf, ht⟩
  · rintro ⟨front, leaf, back, hl, hf, ht⟩
    exact ⟨front, leaf, back, hl, ht, hf⟩

theorem fails_iff : writer.Fails notebook ↔ ∀ leaf ∈ writer.leaves, leaf.Fails notebook := by
  rw [fails_iff_toOption, toOption_render, List.findSome?_eq_none_iff]
  simp only [fails_iff_toOption]

/-- Of all failures the last one is told. -/
theorem render_last (h : writer.render notebook = .error failure) :
    ∃ last, writer.leaves.getLast? = some last ∧ last.render notebook = .error failure := by
  induction writer with
  | structured => exact ⟨structured, rfl, h⟩
  | plain => exact ⟨plain, rfl, h⟩
  | fallback first second _ ih' =>
    obtain ⟨last, hl, he⟩ := ih' (render_fallback_eq_error_iff.mp h).2
    exact ⟨last, by rw [leaves, List.getLast?_append, hl, Option.some_or], he⟩

theorem render_eq_error_iff :
    writer.render notebook = .error failure ↔
      (∀ leaf ∈ writer.leaves, leaf.Fails notebook) ∧
        ∃ last, writer.leaves.getLast? = some last ∧ last.render notebook = .error failure := by
  constructor
  · intro h
    exact ⟨fails_iff.mp ⟨failure, h⟩, render_last h⟩
  · rintro ⟨hall, last, hl, he⟩
    obtain ⟨failure', h⟩ := fails_iff.mpr hall
    obtain ⟨last', hl', he'⟩ := render_last h
    obtain rfl := Option.some.inj (hl.symm.trans hl')
    rw [h, ← he, he']

/-- The structured writer fails as the check of the notebook does and in no other way; the cell
types of its document always pass, and the plain writer never fails.  A writer made of these two
gives the text of the first leaf that succeeds; it fails if all its leaves do, with the failure of
the last one, and so never when the plain writer is among them, as it is in the automatic choice. -/
theorem render_ordered_choice (writer : Writer) (notebook : Notebook) :
    (∀ failure, structured.render notebook = .error failure ↔
        ∃ cause, notebook.validate = .error cause ∧ failure = .validation cause) ∧
      checkCellTypes notebook.toJson.ordered = .ok () ∧
      (∃ text, plain.render notebook = .ok text) ∧
      (∀ leaf ∈ writer.leaves, leaf = structured ∨ leaf = plain) ∧
      (∀ text, writer.render notebook = .ok text ↔
        ∃ front leaf back, writer.leaves = front ++ leaf :: back ∧
          (∀ earlier ∈ front, earlier.Fails notebook) ∧ leaf.render notebook = .ok text) ∧
      (∀ failure, writer.render notebook = .error failure ↔
        (∀ leaf ∈ writer.leaves, leaf.Fails notebook) ∧
          ∃ last, writer.leaves.getLast? = some last ∧ last.render notebook = .error failure) ∧
      (plain ∈ writer.leaves → ∃ text, writer.render notebook = .ok text) ∧
      plain ∈ auto.leaves := by
  refine ⟨fun failure => render_structured_eq_error_iff, checkCellTypes_toJson notebook,
    ⟨_, render_plain notebook⟩, fun leaf => structured_or_plain_of_mem_leaves,
    fun text => render_eq_ok_iff, fun failure => render_eq_error_iff, fun hplain => ?_, by decide⟩
  cases h : writer.render notebook with
  | ok text => exact ⟨text, rfl⟩
  | error failure =>
    exact absurd (fails_iff.mp ⟨failure, h⟩ plain hplain) (not_fails_plain notebook)

def unnamedNotebook : Notebook := ⟨[], ⟨⟨[], [], []⟩, []⟩, .current⟩

theorem render_ordered_choice_unnamed :
    structured.render unnamedNotebook = .error (.validation .unnamedKernel) ∧
      ∃ text, (fallback (fallback structured structured) plain).render unnamedNotebook =
        .ok text := by
  obtain ⟨hstructured, -, -, -, -, -, hplain, -⟩ :=
    render_ordered_choice (fallback (fallback structured structured) plain) unnamedNotebook
  exact ⟨(hstructured _).mpr ⟨.unnamedKernel, rfl, rfl⟩, hplain (by decide)⟩

end Writer

end ScriptNotebook
