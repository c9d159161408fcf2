import ScriptNotebook.Proofs.DirectoryWalks
import ScriptNotebook.Proofs.OutputPaths

/-!
Parents as texts.  The text of a parent is the front of the text of the path, so that a path is
longer than what is above it and passes every check that the path passes.  Nothing idle stands at
the end of a parent.
-/
namespace ScriptNotebook

theorem Text.join_isPrefix {mark : Text} {front pieces : List Text} (h : front <+: pieces) :
    join mark front <+: join mark pieces := by
  induction front generalizing pieces with
  | nil => exact List.nil_prefix
  | cons piece front ih =>
    obtain ⟨rest, rfl⟩ := h
    cases front with
    | nil =>
      cases rest with
      | nil => exact List.prefix_rfl
      | cons u rest => exact (List.prefix_append piece mark).trans (List.prefix_append _ _)
    | cons u front =>
      rw [List.cons_append, List.cons_append, join_cons_cons, join_cons_cons]
      exact (List.prefix_append_right_inj _).mpr (ih (List.prefix_append (u :: front) rest))

namespace Path

variable {p q : Path} {name : Text}

theorem ofParts_parts (p : Path) : ofParts p.parts.1 p.parts.2 = p := by
  have hjoin : Text.join ['/'] (Text.cut '/' p.text) = p.text := Text.join_cut '/' p.text
  obtain ⟨text⟩ := p
  rw [parts]
  split
  · next hc =>
    rw [hc] at hjoin
    exact congrArg _ hjoin
  · next pieces hne hc =>
    rw [hc] at hjoin
    cases pieces with
    | nil => exact absurd rfl hne
    | cons piece pieces => exact congrArg _ hjoin
  · next pieces hc =>
    rw [hc] at hjoin
    cases pieces with
    | nil => exact congrArg _ hjoin
    | cons piece pieces => exact congrArg _ hjoin
  · exact congrArg _ hjoin

theorem ofParts_isPrefix (anchor : Anchor) {front pieces : List Text} (h : front <+: pieces) :
    (ofParts anchor front).text <+: (ofParts anchor pieces).text := by
  have hj : Text.join ['/'] front <+: Text.join ['/'] pieces := Text.join_isPrefix h
  cases anchor with
  | root => exact List.cons_prefix_cons.mpr ⟨rfl, hj⟩
  | free => exact hj
  | here =>
    cases front with
    | nil =>
      cases pieces with
      | nil => exact List.prefix_rfl
      | cons piece pieces => exact List.prefix_append ['.'] _
    | cons piece front =>
      obtain ⟨rest, rfl⟩ := h
      exact List.cons_prefix_cons.mpr ⟨rfl, List.cons_prefix_cons.mpr ⟨rfl, hj⟩⟩

theorem cut_ofParts (anchor : Anchor) {pieces : List Text} (hne : pieces ≠ [])
    (hs : ∀ piece ∈ pieces, '/' ∉ piece) :
    ∃ first, Text.cut '/' (ofParts anchor pieces).text = first ++ pieces := by
  have hj : Text.cut '/' (Text.join ['/'] pieces) = pieces := Text.cut_join hne hs
  cases anchor with
  | root => exact ⟨[[]], (Text.cut_mark _ _).trans (congrArg _ hj)⟩
  | free => exact ⟨[], hj⟩
  | here =>
    obtain ⟨piece, rest, rfl⟩ := List.exists_cons_of_ne_nil hne
    exact ⟨[['.']], (Text.cut_append '/' ['.'] _).trans (congrArg _ hj)⟩

/-- A parent is empty or has the anchor of the path, and some of its pieces up to one that
counts. -/
theorem parent?_cases (h : p.parent? = some q) :
    q.text = [] ∨
      ∃ pieces, pieces <+: p.parts.2 ∧ q = ofParts p.parts.1 (dropEndWhile isIdle pieces) := by
  cases hk : dropEndWhile isIdle p.parts.2 using List.reverseRecOn with
  | nil =>
    simp only [parent?, hk] at h
    split at h
    · obtain rfl := Option.some.inj h
      exact Or.inl rfl
    · cases h
  | append_singleton init last =>
    rw [parent?_of_last hk] at h
    refine Or.inr ⟨init, ?_, (Option.some.inj h).symm⟩
    exact (List.prefix_append init [last]).trans (hk ▸ dropEndWhile_isPrefix p.parts.2)

theorem text_isPrefix_of_parent? (h : p.parent? = some q) : q.text <+: p.text := by
  rcases parent?_cases h with hq | ⟨pieces, hp, rfl⟩
  · rw [hq]
    exact List.nil_prefix
  · have hfront := ofParts_isPrefix p.parts.1 ((dropEndWhile_isPrefix pieces).trans hp)
    rwa [ofParts_parts] at hfront

theorem length_of_parent? (h : p.parent? = some q) : q.text.length < p.text.length := by
  have hp := text_isPrefix_of_parent? h
  refine lt_of_le_of_ne hp.length_le fun hl => ?_
  -- Paths of one text would have the same components, and the parent has one less.
  have hq : q = p := congrArg Path.mk (hp.eq_of_length hl)
  obtain ⟨c, hc⟩ := components_of_parent? h
  simpa [hq] using congrArg List.length hc

end Path

namespace FileTree

variable {p q : Path} {name : Text}

theorem byteLength_append (s t : Text) : byteLength (s ++ t) = byteLength s + byteLength t := by
  induction s with
  | nil => simp [byteLength]
  | cons c s ih => simp [byteLength, ih, Nat.add_assoc]

theorem checkPath_eq_ok :
    checkPath p = .ok () ↔ '\x00' ∉ p.text ∧ p.text ≠ [] ∧ byteLength p.text ≤ maxPath := by
  rw [checkPath]
  split
  · next h => simp_all
  · split
    · simp_all
    · split <;> simp_all

theorem checkPath_parent (h : p.parent? = some q) (hq : q.text ≠ []) (hp : checkPath p = .ok ()) :
    checkPath q = .ok () := by
  obtain ⟨rest, hrest⟩ := Path.text_isPrefix_of_parent? h
  rw [checkPath_eq_ok, ← hrest, byteLength_append, List.mem_append, not_or] at hp
  exact checkPath_eq_ok.mpr ⟨hp.1.1, hq, (Nat.le_add_right _ _).trans hp.2.2⟩

theorem ofPiece?_name (h : Path.IsName name) : Step.ofPiece? name = some (.name name) := by
  simp [Step.ofPiece?, h.1, h.2.2.1, h.2.2.2]

theorem pathSteps_of_parent? (h : p.parent? = some q) {front : List Path.Component}
    (hc : q.components = front ++ [.name name]) :
    ∃ steps, pathSteps q = steps ++ [.name name] := by
  have hname : Path.IsName name := Path.isName_of_mem_components (by rw [hc]; simp)
  rcases Path.parent?_cases h with hq | ⟨pieces, hp, rfl⟩
  · have hnil : q.components = [] := by
      rw [Path.components_eq, hq]
      rfl
    simp [hnil] at hc
  · have hpre := (Path.dropEndWhile_isPrefix pieces).trans hp
    rw [Path.components_ofParts_front hpre] at hc
    cases hk : dropEndWhile Path.isIdle pieces using List.reverseRecOn with
    | nil =>
      rw [hk, Path.counted_nil, List.append_nil] at hc
      cases ha : p.parts.1 <;> rw [ha] at hc <;> cases front <;>
        simp [Path.Anchor.components] at hc
    | append_singleton init last =>
      obtain ⟨c, hlast⟩ := Path.exists_ofPiece? (Path.isIdle_last hk)
      have hcounted : Path.counted [last] = [c] := by simp [Path.counted, hlast]
      rw [hk, Path.counted_append, hcounted, ← List.append_assoc] at hc
      obtain rfl := List.singleton_inj.mp (List.append_inj' hc rfl).2
      have hl : last = name := by
        rw [Path.Component.ofPiece?] at hlast
        split at hlast
        · cases hlast
        · split at hlast <;> cases hlast
          rfl
      subst hl
      have hs : ∀ piece ∈ init ++ [last], '/' ∉ piece :=
        fun piece hm => Path.not_mem_of_mem_parts (hpre.subset (hk ▸ hm))
      obtain ⟨first, hcut⟩ := Path.cut_ofParts p.parts.1
        (List.append_ne_nil_of_right_ne_nil init (List.cons_ne_nil last [])) hs
      refine ⟨(first ++ init).filterMap Step.ofPiece?, ?_⟩
      rw [pathSteps, hcut, ← List.append_assoc, List.filterMap_append]
      simp [ofPiece?_name hname]

/-- The path is a name in the parent, in its components and in its steps. -/
structure NameIn (p q : Path) (name : Text) : Prop where
  parent : p.parent? = some q
  components : p.components = q.components ++ [.name name]
  steps : ∃ steps, pathSteps p = steps ++ [.name name]

theorem NameIn.startOf_eq (h : NameIn p q name) (here : Location) :
    startOf p here = startOf q here :=
  startOf_congr (by simp [h.components]) here

/-- In front of the name, the steps that count are those of the parent. -/
theorem NameIn.exists_steps (h : NameIn p q name) :
    ∃ steps, pathSteps p = steps ++ [.name name] ∧ steps.filter Step.counts = countedSteps q := by
  obtain ⟨steps, hs⟩ := h.steps
  refine ⟨steps, hs, ?_⟩
  have hp := filter_counts_pathSteps p
  rw [hs, List.filter_append, countedSteps, h.components, List.filterMap_append] at hp
  exact List.append_cancel_right hp

theorem NameIn.text_ne_nil (h : NameIn p q name) : p.text ≠ [] :=
  List.ne_nil_of_length_pos (Nat.zero_lt_of_lt (Path.length_of_parent? h.parent))

theorem exists_nameIn (h : p.parent? = some q) {front : List Path.Component}
    (hc : q.components = front ++ [.name name]) :
    ∃ above, NameIn q above name ∧ above.components = front := by
  obtain ⟨above, habove, hfront⟩ := Path.exists_parent hc
  exact ⟨above, ⟨habove, by rw [hc, hfront], pathSteps_of_parent? h hc⟩, hfront⟩

theorem exists_nameIn_join (base : Path) (h : Path.IsName name) :
    ∃ above, NameIn (base.join ⟨name⟩) above name ∧ above.components = base.components := by
  have hc : (base.join ⟨name⟩).components = base.components ++ [.name name] := by
    rw [Path.components_join (Path.parts_fst_name h), Path.components_name h]
  obtain ⟨above, habove, hfront⟩ := Path.exists_parent hc
  refine ⟨above, ⟨habove, by rw [hc, hfront], ?_⟩, hfront⟩
  by_cases hb : base.text = []
  · refine ⟨[], ?_⟩
    rw [Path.join, Path.isAbsolute_of_free (Path.parts_fst_name h), hb, pathSteps]
    simp [Path.cut_name h, ofPiece?_name h]
  · exact ⟨_, pathSteps_join hb h⟩

end FileTree

end ScriptNotebook
