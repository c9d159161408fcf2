import ScriptNotebook.Notebook.Validation

/-!
What the check of a notebook accepts, and what it says of one that it refuses.  The identifiers are
checked in order against those that came before; a first one that offends stops the check, and where
none offends they are well-formed and all different.
-/
namespace ScriptNotebook

/-- From 1 to 64 letters, digits, underscores and hyphens, all of them ASCII. -/
structure Text.IsCellId (id : Text) : Prop where
  nonempty : id ≠ []
  short : id.length ≤ 64
  chars : ∀ c ∈ id, c.isAlphanum = true ∨ c = '_' ∨ c = '-'

theorem isIdChar_iff {c : Char} : isIdChar c = true ↔ c.isAlphanum = true ∨ c = '_' ∨ c = '-' := by
  have halphanum : c.isAlphanum = (c.isUpper || c.isLower || c.isDigit) := rfl
  have hupper : c.isUpper = decide ('A' ≤ c ∧ c ≤ 'Z') := rfl
  have hlower : c.isLower = (decide ('a' ≤ c) && decide (c ≤ 'z')) := rfl
  have hdigit : c.isDigit = (decide ('0' ≤ c) && decide (c ≤ '9')) := rfl
  simp only [isIdChar, isDigit, halphanum, hupper, hlower, hdigit, Bool.or_eq_true,
    Bool.and_eq_true, decide_eq_true_eq, beq_iff_eq]
  grind

theorem isCellId_iff {id : Text} : isCellId id = true ↔ id.IsCellId := by
  simp only [isCellId, Bool.and_eq_true, decide_eq_true_eq, List.all_eq_true, isIdChar_iff]
  constructor
  · rintro ⟨⟨hn, hs⟩, hc⟩
    exact ⟨List.ne_nil_of_length_pos hn, hs, hc⟩
  · rintro ⟨hn, hs, hc⟩
    exact ⟨⟨List.length_pos_iff.mpr hn, hs⟩, hc⟩

/-- The check passes identifiers that are well-formed, all different and new. -/
theorem checkIds_eq_ok_iff (seen ids : List Text) :
    checkIds seen ids = .ok () ↔
      (∀ id ∈ ids, isCellId id = true) ∧ ids.Nodup ∧ ∀ id ∈ ids, id ∉ seen := by
  induction ids generalizing seen with
  | nil => simp [checkIds]
  | cons id ids ih =>
    rw [checkIds]
    by_cases hid : isCellId id = true
    · by_cases hseen : id ∈ seen
      · simp [hid, hseen]
      · simp only [hid, Bool.not_true, Bool.false_eq_true, if_false, List.contains_iff_mem, hseen,
          ih, List.mem_cons, forall_eq_or_imp, List.nodup_cons, not_or, true_and, not_false_eq_true]
        grind
    · simp [hid]

inductive OffendsAt (ids : List Text) (i : Nat) : ValidationError → Prop
  | malformed {id : Text} (hi : ids[i]? = some id) (hid : ¬ id.IsCellId) :
    OffendsAt ids i (.invalidCellId id)
  | repeated {id : Text} (hi : ids[i]? = some id) (hid : id.IsCellId) (hm : id ∈ ids.take i) :
    OffendsAt ids i (.duplicateCellId id)

/-- What is wrong with the first identifier that anything is wrong with. -/
def FirstOffence (ids : List Text) (cause : ValidationError) : Prop :=
  ∃ i, OffendsAt ids i cause ∧ ∀ j < i, ∀ other, ¬ OffendsAt ids j other

section

variable {ids front rest : List Text} {id : Text} {i : Nat} {cause other : ValidationError}

theorem OffendsAt.lt_length (h : OffendsAt ids i cause) : i < ids.length := by
  cases h with
  | malformed hi => exact (List.getElem?_eq_some_iff.mp hi).1
  | repeated hi => exact (List.getElem?_eq_some_iff.mp hi).1

theorem OffendsAt.eq (h : OffendsAt ids i cause) (h' : OffendsAt ids i other) : cause = other := by
  cases h with
  | malformed hi hid =>
    cases h' with
    | malformed hi' => rw [Option.some.inj (hi.symm.trans hi')]
    | repeated hi' hid' => exact absurd (Option.some.inj (hi.symm.trans hi') ▸ hid') hid
  | repeated hi hid =>
    cases h' with
    | malformed hi' hid' => exact absurd (Option.some.inj (hi.symm.trans hi') ▸ hid) hid'
    | repeated hi' => rw [Option.some.inj (hi.symm.trans hi')]

theorem not_offendsAt_concat
    (hclean : ∀ j < front.length, ∀ c, ¬ OffendsAt (front ++ id :: rest) j c)
    (hid : id.IsCellId) (hnew : id ∉ front) :
    ∀ j < (front ++ [id]).length, ∀ c, ¬ OffendsAt (front ++ id :: rest) j c := by
  intro j hj c hc
  rw [List.length_append, List.length_singleton] at hj
  rcases Nat.lt_succ_iff_lt_or_eq.mp hj with hj | rfl
  · exact hclean j hj c hc
  · cases hc with
    | malformed hi hid' =>
      rw [List.getElem?_append_right (Nat.le_refl _), Nat.sub_self] at hi
      exact hid' (Option.some.inj hi ▸ hid)
    | repeated hi _ hm =>
      rw [List.getElem?_append_right (Nat.le_refl _), Nat.sub_self] at hi
      rw [List.take_left] at hm
      exact hnew (Option.some.inj hi ▸ hm)

theorem firstOffence_iff (h : OffendsAt ids i cause) (hclean : ∀ j < i, ∀ c, ¬ OffendsAt ids j c) :
    FirstOffence ids other ↔ cause = other := by
  constructor
  · rintro ⟨j, hj, hbefore⟩
    -- Two first positions: neither is in front of the other.
    have hij : j = i := by
      rcases Nat.lt_trichotomy j i with hlt | heq | hgt
      · exact absurd hj (hclean j hlt other)
      · exact heq
      · exact absurd h (hbefore i hgt cause)
    exact h.eq (hij ▸ hj)
  · rintro rfl
    exact ⟨i, h, hclean⟩

/-- Behind identifiers that pass, the check stops at the first that offends. -/
theorem checkIds_eq_error_iff
    (hclean : ∀ j < front.length, ∀ c, ¬ OffendsAt (front ++ rest) j c) :
    checkIds front.reverse rest = .error cause ↔ FirstOffence (front ++ rest) cause := by
  induction rest generalizing front with
  | nil =>
    refine ⟨fun h => (by cases h), ?_⟩
    rintro ⟨i, hi, -⟩
    exact absurd hi (hclean i (by simpa using hi.lt_length) cause)
  | cons id rest ih =>
    have hget : (front ++ id :: rest)[front.length]? = some id := by simp
    by_cases hid : isCellId id = true
    · by_cases hm : id ∈ front
      · have hoffends : OffendsAt (front ++ id :: rest) front.length (.duplicateCellId id) :=
          .repeated hget (isCellId_iff.mp hid) (by simpa using hm)
        rw [firstOffence_iff hoffends hclean]
        simp [checkIds, hid, hm]
      · have hnext : checkIds front.reverse (id :: rest) =
            checkIds (front ++ [id]).reverse rest := by
          simp [checkIds, hid, hm]
        have happend : front ++ id :: rest = front ++ [id] ++ rest := by simp
        have hclean' := not_offendsAt_concat hclean (isCellId_iff.mp hid) hm
        rw [happend] at hclean' ⊢
        rw [hnext, ih hclean']
    · have hoffends : OffendsAt (front ++ id :: rest) front.length (.invalidCellId id) :=
        .malformed hget (mt isCellId_iff.mpr hid)
      rw [firstOffence_iff hoffends hclean]
      simp [checkIds, hid]

end

namespace Notebook

structure Valid (notebook : Notebook) : Prop where
  version : notebook.version = ⟨4, 5⟩
  kernelName : notebook.metadata.kernel.name ≠ []
  displayName : notebook.metadata.kernel.displayName ≠ []
  ids : ∀ cell ∈ notebook.cells, cell.id.IsCellId
  distinct : notebook.cells.Pairwise fun cell other => cell.id ≠ other.id

/-- What is to blame for a notebook that is not valid: its version before its kernel, and its kernel
before the first of its cells that offends. -/
inductive Blames (notebook : Notebook) : ValidationError → Prop
  | version (h : notebook.version ≠ ⟨4, 5⟩) : Blames notebook (.unsupportedVersion notebook.version)
  | kernel (hv : notebook.version = ⟨4, 5⟩)
    (h : notebook.metadata.kernel.name = [] ∨ notebook.metadata.kernel.displayName = []) :
    Blames notebook .unnamedKernel
  | cell (hv : notebook.version = ⟨4, 5⟩) (hn : notebook.metadata.kernel.name ≠ [])
    (hd : notebook.metadata.kernel.displayName ≠ []) {cause : ValidationError}
    (h : FirstOffence (notebook.cells.map (·.id)) cause) : Blames notebook cause

theorem validate_eq_ok_iff (notebook : Notebook) :
    notebook.validate = .ok () ↔
      notebook.version = .current ∧ notebook.metadata.kernel.name ≠ [] ∧
        notebook.metadata.kernel.displayName ≠ [] ∧
        (∀ cell ∈ notebook.cells, isCellId cell.id = true) ∧
        (notebook.cells.map (·.id)).Nodup := by
  rw [validate]
  by_cases hversion : notebook.version = .current
  · by_cases hkernel : notebook.metadata.kernel.name = [] ∨
      notebook.metadata.kernel.displayName = []
    · simp [hversion, hkernel]
      grind
    · rw [not_or] at hkernel
      simp [hversion, hkernel, checkIds_eq_ok_iff]
  · simp [hversion]

theorem validate_eq_error_iff {notebook : Notebook} {cause : ValidationError} :
    notebook.validate = .error cause ↔ notebook.Blames cause := by
  rw [validate]
  by_cases hv : notebook.version = .current
  · rw [if_neg (not_not_intro hv)]
    by_cases hk : notebook.metadata.kernel.name = [] ∨ notebook.metadata.kernel.displayName = []
    · rw [if_pos hk]
      constructor
      · intro h
        exact Except.error.inj h ▸ .kernel hv hk
      · intro h
        cases h with
        | version h => exact absurd hv h
        | kernel => rfl
        | cell _ hn hd => exact absurd hk (not_or_intro hn hd)
    · have hids : checkIds [] (notebook.cells.map (·.id)) = .error cause ↔
          FirstOffence (notebook.cells.map (·.id)) cause :=
        @checkIds_eq_error_iff [] _ cause fun j hj => absurd hj (Nat.not_lt_zero j)
      rw [if_neg hk, hids]
      obtain ⟨hn, hd⟩ := not_or.mp hk
      constructor
      · exact .cell hv hn hd
      · intro h
        cases h with
        | version h => exact absurd hv h
        | kernel _ h => exact absurd h hk
        | cell _ _ _ h => exact h
  · rw [if_pos hv]
    constructor
    · intro h
      exact Except.error.inj h ▸ .version hv
    · intro h
      cases h with
      | version => rfl
      | kernel hv' => exact absurd hv' hv
      | cell hv' => exact absurd hv' hv

/-- The check accepts the valid notebooks and no others; what it says of another is to blame for
it. -/
theorem validate_accepts_or_blames (notebook : Notebook) :
    (notebook.validate = .ok () ↔ notebook.Valid) ∧
      ∀ cause, notebook.validate = .error cause ↔ notebook.Blames cause := by
  refine ⟨?_, fun cause => validate_eq_error_iff⟩
  simp only [validate_eq_ok_iff, isCellId_iff, List.Nodup, List.pairwise_map]
  constructor
  · rintro ⟨hv, hn, hd, hi, hp⟩
    exact ⟨hv, hn, hd, hi, hp⟩
  · rintro ⟨hv, hn, hd, hi, hp⟩
    exact ⟨hv, hn, hd, hi, hp⟩

/-- A malformed identifier goes before a repeated one that comes later. -/
example : checkIds [] (["a", "b c", "a"].map String.toList) =
    .error (.invalidCellId "b c".toList) := rfl

end Notebook

end ScriptNotebook
