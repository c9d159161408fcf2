import ScriptNotebook.Proofs.TextPieces
import ScriptNotebook.Proofs.Trimming
import ScriptNotebook.Path

/-!
Paths through their components.  Joining appends components, the parent drops the last one, and what
a path has below a base is what follows the components of the base, however the paths are written.
-/
namespace ScriptNotebook.Path

/-- A text that is a component by itself, with no meaning of its own for a walk. -/
def IsName (name : Text) : Prop :=
  name ≠ [] ∧ '/' ∉ name ∧ name ≠ ['.'] ∧ name ≠ ['.', '.']

instance (name : Text) : Decidable (IsName name) :=
  inferInstanceAs (Decidable (_ ∧ _ ∧ _ ∧ _))

def counted (pieces : List Text) : List Component := pieces.filterMap Component.ofPiece?

@[simp] theorem counted_nil : counted [] = [] := rfl

@[simp] theorem counted_append (s t : List Text) : counted (s ++ t) = counted s ++ counted t :=
  List.filterMap_append

theorem ofPiece?_of_isIdle {piece : Text} (h : isIdle piece = true) :
    Component.ofPiece? piece = none := by
  rw [Component.ofPiece?, if_pos h]

theorem exists_ofPiece? {piece : Text} (h : isIdle piece = false) :
    ∃ c, Component.ofPiece? piece = some c := by
  rw [Component.ofPiece?, h, if_neg Bool.false_ne_true]
  split <;> exact ⟨_, rfl⟩

theorem ofPiece?_name {name : Text} (h : IsName name) :
    Component.ofPiece? name = some (.name name) := by
  obtain ⟨hn, -, hd, hu⟩ := h
  simp [Component.ofPiece?, isIdle, hn, hd, hu]

@[simp] theorem counted_cons_of_isIdle {piece : Text} (h : isIdle piece = true)
    (pieces : List Text) : counted (piece :: pieces) = counted pieces :=
  List.filterMap_cons_none (ofPiece?_of_isIdle h)

theorem counted_dropEndWhile (pieces : List Text) :
    counted (dropEndWhile isIdle pieces) = counted pieces := by
  rw [dropEndWhile_eq_rdropWhile]
  induction pieces using List.reverseRecOn with
  | nil => rfl
  | append_singleton pieces piece ih =>
    by_cases h : isIdle piece = true
    · rw [List.rdropWhile_concat_pos _ _ _ h, ih, counted_append, counted_cons_of_isIdle h]
      simp
    · rw [List.rdropWhile_concat_neg _ _ _ h]

def anchorOf : List Text → Anchor
  | [[]] => .free
  | [] :: _ => .root
  | ['.'] :: _ => .here
  | _ => .free

/-- The first piece decides on the anchor, unless the text is empty. -/
theorem anchorOf_cons {piece : Text} {rest : List Text} (h : piece ≠ [] ∨ rest ≠ []) :
    anchorOf (piece :: rest) =
      if piece = [] then .root else if piece = ['.'] then .here else .free := by
  rw [anchorOf.eq_def]
  split <;> simp_all

theorem parts_fst (p : Path) : p.parts.1 = anchorOf (Text.cut '/' p.text) := by
  rw [parts, anchorOf.eq_def]
  split <;> simp_all

theorem counted_parts_snd (p : Path) : counted p.parts.2 = counted (Text.cut '/' p.text) := by
  rw [parts]
  split <;> simp_all [counted, Component.ofPiece?, isIdle]

theorem components_eq (p : Path) :
    p.components =
      (anchorOf (Text.cut '/' p.text)).components ++ counted (Text.cut '/' p.text) := by
  rw [components, parts_fst, ← counted, counted_parts_snd]

theorem not_mem_of_mem_parts {p : Path} {piece : Text} (h : piece ∈ p.parts.2) : '/' ∉ piece := by
  have hm : piece ∈ Text.cut '/' p.text := by
    rw [parts] at h
    split at h <;> simp_all
  exact Text.not_mem_of_mem_cut hm

theorem isIdle_head_parts {p : Path} (h : p.parts.1 = .free) :
    ∀ piece, p.parts.2.head? = some piece → isIdle piece = false := by
  rw [parts] at h ⊢
  split at h
  · simp
  · cases h
  · cases h
  · next hr hh =>
    rintro piece hp
    obtain ⟨rest, hc⟩ : ∃ rest, Text.cut '/' p.text = piece :: rest := by
      cases hc : Text.cut '/' p.text <;> simp_all
    have h1 : piece ≠ [] := by rintro rfl; exact hr rest hc
    have h2 : piece ≠ ['.'] := by rintro rfl; exact hh rest hc
    simp [isIdle, h1, h2]

theorem cut_name {name : Text} (h : IsName name) : Text.cut '/' name = [name] :=
  Text.cut_of_not_mem h.2.1

theorem components_name {name : Text} (h : IsName name) :
    (⟨name⟩ : Path).components = [.name name] := by
  have ha : anchorOf [name] = .free := by
    rw [anchorOf.eq_def]
    split <;> simp_all [IsName]
  rw [components_eq, cut_name h, ha]
  simp [Anchor.components, counted, ofPiece?_name h]

theorem parts_fst_name {name : Text} (h : IsName name) : (⟨name⟩ : Path).parts.1 = .free := by
  rw [parts_fst, cut_name h, anchorOf.eq_def]
  split <;> simp_all [IsName]

theorem parts_fst_of_components {p : Path} {names : List Text}
    (h : p.components = names.map .name) : p.parts.1 = .free := by
  rw [components] at h
  cases ha : p.parts.1 with
  | free => rfl
  | root => cases names <;> simp [ha, Anchor.components] at h
  | here => cases names <;> simp [ha, Anchor.components] at h

theorem isAbsolute_of_free {p : Path} (h : p.parts.1 = .free) : p.isAbsolute = false := by
  simp [isAbsolute, h]

theorem join_ne_nil {base : Path} (hb : base.text ≠ []) (p : Path) :
    (base.join p).text ≠ [] := by
  rw [join]
  split
  · next ha =>
    intro hp
    rw [isAbsolute, parts, hp] at ha
    exact absurd ha (by decide)
  · split
    · next hl => exact absurd (List.getLast?_eq_none_iff.mp hl) hb
    · exact List.append_ne_nil_of_left_ne_nil hb _
    · exact List.append_ne_nil_of_left_ne_nil hb _

/-- The text of a join is cut into pieces of the base, all of them or all but an empty last one,
and the pieces of the other path. -/
theorem cut_join {base p : Path} (hb : base.text ≠ []) (hp : p.isAbsolute = false) :
    ∃ pieces, Text.cut '/' (base.join p).text = pieces ++ Text.cut '/' p.text ∧ pieces ≠ [] ∧
      (Text.cut '/' base.text = pieces ∨ Text.cut '/' base.text = pieces ++ [[]]) := by
  rw [join, hp, if_neg Bool.false_ne_true]
  split
  · next h => exact absurd (List.getLast?_eq_none_iff.mp h) hb
  · next h =>
    obtain ⟨front, hf⟩ := List.getLast?_eq_some_iff.mp h
    refine ⟨Text.cut '/' front, ?_, Text.cut_ne_nil _ _, Or.inr ?_⟩
    · rw [hf, List.append_assoc, List.singleton_append, Text.cut_append]
    · rw [hf, Text.cut_append, Text.cut_nil]
  · exact ⟨Text.cut '/' base.text, Text.cut_append _ _ _, Text.cut_ne_nil _ _, Or.inl rfl⟩

theorem components_join {base p : Path} (hp : p.parts.1 = .free) :
    (base.join p).components = base.components ++ p.components := by
  have ha : p.isAbsolute = false := isAbsolute_of_free hp
  have hpc : p.components = counted (Text.cut '/' p.text) := by
    rw [components_eq, ← parts_fst, hp]
    rfl
  by_cases hb : base.text = []
  · have hj : base.join p = p := by simp [join, ha, hb]
    have hc : base.components = [] := by rw [components_eq, hb]; rfl
    rw [hj, hc, List.nil_append]
  · obtain ⟨pieces, hj, hne, hbase⟩ := cut_join hb ha
    have hanchor :
        anchorOf (pieces ++ Text.cut '/' p.text) = anchorOf (Text.cut '/' base.text) := by
      obtain ⟨piece, rest, rfl⟩ := List.exists_cons_of_ne_nil hne
      obtain ⟨first, more, hm⟩ := Text.exists_cut_eq_cons '/' p.text
      have hl : piece ≠ [] ∨ rest ++ Text.cut '/' p.text ≠ [] := Or.inr (by simp [hm])
      rw [List.cons_append, anchorOf_cons hl]
      rcases hbase with h | h
      · have hr : piece ≠ [] ∨ rest ≠ [] := by
          by_contra hn
          rw [not_or, not_not, not_not] at hn
          exact hb (by rw [← Text.join_cut '/' base.text, h, hn.1, hn.2]; rfl)
        rw [h, anchorOf_cons hr]
      · rw [h, List.cons_append, anchorOf_cons (Or.inr (by simp))]
    have hcount : counted (Text.cut '/' base.text) = counted pieces := by
      rcases hbase with h | h
      · rw [h]
      · rw [h, counted_append]
        simp [isIdle]
    rw [components_eq, hj, hanchor, components_eq base, hpc, hcount, counted_append,
      List.append_assoc]

theorem counted_cut_join {pieces : List Text} (h : ∀ piece ∈ pieces, '/' ∉ piece) :
    counted (Text.cut '/' (Text.join ['/'] pieces)) = counted pieces := by
  by_cases hp : pieces = []
  · subst hp
    rfl
  · rw [Text.cut_join hp h]

theorem components_ofParts {anchor : Anchor} {pieces : List Text}
    (hs : ∀ piece ∈ pieces, '/' ∉ piece)
    (hf : anchor = .free → ∀ piece, pieces.head? = some piece → isIdle piece = false) :
    (ofParts anchor pieces).components = anchor.components ++ counted pieces := by
  rw [components_eq]
  cases anchor with
  | root =>
    have hc : Text.cut '/' (ofParts .root pieces).text =
        [] :: Text.cut '/' (Text.join ['/'] pieces) := Text.cut_mark _ _
    rw [hc, anchorOf_cons (Or.inr (Text.cut_ne_nil _ _)), counted_cons_of_isIdle (by rfl),
      counted_cut_join hs]
    rfl
  | here =>
    cases pieces with
    | nil => rfl
    | cons piece rest =>
      have hc : Text.cut '/' (ofParts .here (piece :: rest)).text =
          ['.'] :: Text.cut '/' (Text.join ['/'] (piece :: rest)) :=
        Text.cut_append '/' ['.'] _
      rw [hc, anchorOf_cons (Or.inl (by simp)), counted_cons_of_isIdle (by rfl),
        counted_cut_join hs]
      rfl
  | free =>
    cases pieces with
    | nil => rfl
    | cons piece rest =>
      have hc : Text.cut '/' (ofParts .free (piece :: rest)).text = piece :: rest :=
        Text.cut_join (by simp) hs
      have hi : isIdle piece = false := hf rfl piece rfl
      have hp : piece ≠ [] ∧ piece ≠ ['.'] := by simpa [isIdle] using hi
      rw [hc, anchorOf_cons (Or.inl hp.1), if_neg hp.1, if_neg hp.2]

theorem head?_of_isPrefix {front pieces : List Text} {piece : Text} (h : front <+: pieces)
    (hp : front.head? = some piece) : pieces.head? = some piece := by
  obtain ⟨rest, rfl⟩ := h
  rw [List.head?_append, hp]
  rfl

theorem components_ofParts_front {p : Path} {pieces : List Text} (h : pieces <+: p.parts.2) :
    (ofParts p.parts.1 pieces).components = p.parts.1.components ++ counted pieces := by
  refine components_ofParts (fun piece hm => not_mem_of_mem_parts (h.subset hm)) ?_
  intro ha piece hp
  exact isIdle_head_parts ha piece (head?_of_isPrefix h hp)

theorem dropEndWhile_isPrefix (pieces : List Text) : dropEndWhile isIdle pieces <+: pieces := by
  rw [dropEndWhile_eq_rdropWhile]
  exact List.rdropWhile_prefix isIdle pieces

theorem parent?_of_last {p : Path} {init : List Text} {last : Text}
    (h : dropEndWhile isIdle p.parts.2 = init ++ [last]) :
    p.parent? = some (ofParts p.parts.1 (dropEndWhile isIdle init)) := by
  obtain ⟨first, rest, hc⟩ := List.exists_cons_of_ne_nil (List.append_ne_nil_of_right_ne_nil init
    (List.cons_ne_nil last []))
  simp only [parent?, h, hc]
  rw [← hc, List.dropLast_concat]

theorem isIdle_last {pieces init : List Text} {last : Text}
    (h : dropEndWhile isIdle pieces = init ++ [last]) : isIdle last = false := by
  rw [dropEndWhile_eq_rdropWhile] at h
  have hne : pieces.rdropWhile isIdle ≠ [] := by simp [h]
  have hl := List.rdropWhile_last_not isIdle pieces hne
  simpa [h] using hl

theorem components_eq_counted_dropEndWhile (p : Path) :
    p.components = p.parts.1.components ++ counted (dropEndWhile isIdle p.parts.2) := by
  rw [counted_dropEndWhile]
  rfl

/-- The parent of a path has its components without the last one. -/
theorem components_of_parent? {p q : Path} (h : p.parent? = some q) :
    ∃ c, p.components = q.components ++ [c] := by
  rw [components_eq_counted_dropEndWhile]
  cases hk : dropEndWhile isIdle p.parts.2 using List.reverseRecOn with
  | nil =>
    simp only [parent?, hk] at h
    cases ha : p.parts.1 with
    | here =>
      rw [ha] at h
      obtain rfl := Option.some.inj h
      exact ⟨.here, rfl⟩
    | root => simp [ha] at h
    | free => simp [ha] at h
  | append_singleton init last =>
    have hpre : dropEndWhile isIdle init <+: p.parts.2 :=
      (dropEndWhile_isPrefix init).trans
        ((List.prefix_append init [last]).trans (hk ▸ dropEndWhile_isPrefix p.parts.2))
    obtain ⟨c, hc⟩ := exists_ofPiece? (isIdle_last hk)
    have hl : counted [last] = [c] := by simp [counted, hc]
    rw [parent?_of_last hk] at h
    obtain rfl := Option.some.inj h
    refine ⟨c, ?_⟩
    rw [components_ofParts_front hpre, counted_dropEndWhile, counted_append, hl,
      List.append_assoc]

theorem exists_parent {p : Path} {front : List Component} {name : Text}
    (h : p.components = front ++ [.name name]) :
    ∃ q, p.parent? = some q ∧ q.components = front := by
  cases hp : p.parent? with
  | some q =>
    obtain ⟨c, hc⟩ := components_of_parent? hp
    exact ⟨q, rfl, (List.append_inj' (hc.symm.trans h) rfl).1⟩
  | none =>
    -- Only the root and the empty path have no parent, and neither ends in a name.
    rw [components_eq_counted_dropEndWhile] at h
    cases hk : dropEndWhile isIdle p.parts.2 using List.reverseRecOn with
    | nil =>
      rw [hk, counted_nil, List.append_nil] at h
      cases ha : p.parts.1 <;> rw [ha] at h <;> cases front <;> simp [Anchor.components] at h
    | append_singleton init last => simp [parent?_of_last hk] at hp

theorem counted_dropComponents (n : Nat) (pieces : List Text) :
    counted (dropComponents n pieces) = (counted pieces).drop n := by
  fun_induction dropComponents n pieces with
  | case1 => simp
  | case2 piece pieces h ih => rw [ih, counted_cons_of_isIdle h]
  | case3 => rfl
  | case4 n piece pieces ih =>
    rw [ih]
    by_cases h : isIdle piece = true
    · rw [if_pos h, counted_cons_of_isIdle h]
    · obtain ⟨c, hc⟩ := exists_ofPiece? (Bool.not_eq_true _ ▸ h)
      rw [if_neg h, counted, counted, List.filterMap_cons_some hc, List.drop_succ_cons]

theorem dropComponents_suffix (n : Nat) (pieces : List Text) :
    dropComponents n pieces <:+ pieces := by
  fun_induction dropComponents n pieces with
  | case1 => exact List.suffix_rfl
  | case2 piece pieces h ih => exact ih.trans (List.suffix_cons piece pieces)
  | case3 => exact List.suffix_rfl
  | case4 n piece pieces ih => exact ih.trans (List.suffix_cons piece pieces)

theorem isIdle_head_dropComponents (n : Nat) (pieces : List Text) :
    ∀ piece, (dropComponents n pieces).head? = some piece → isIdle piece = false := by
  fun_induction dropComponents n pieces with
  | case1 => simp
  | case2 piece pieces h ih => exact ih
  | case3 piece pieces h => simpa using h
  | case4 n piece pieces ih => exact ih

/-- Below a base, a path has the components that follow those of the base. -/
theorem exists_relativeTo {p base : Path} {names : List Text}
    (h : p.components = base.components ++ names.map .name) :
    ∃ r, p.relativeTo? base = some r ∧ r.components = names.map .name := by
  have htake : p.components.take base.components.length = base.components := by
    rw [h, List.take_left]
  have hdrop : p.components.drop base.components.length = names.map .name := by
    rw [h, List.drop_left]
  have hin : ¬ p.components.take base.components.length ≠ base.components := not_not.mpr htake
  by_cases hb : base.components.length = 0
  · refine ⟨ofParts p.parts.1 (dropEndWhile isIdle p.parts.2), ?_, ?_⟩
    · simp only [relativeTo?, if_neg hin, if_pos hb]
    · rw [hb, List.drop_zero] at hdrop
      rw [components_ofParts_front (dropEndWhile_isPrefix _), counted_dropEndWhile, ← hdrop]
      rfl
  · have hlen : p.parts.1.components.length ≤ base.components.length := by
      cases p.parts.1 <;> simp [Anchor.components] <;> omega
    let left := dropComponents (base.components.length - p.parts.1.components.length) p.parts.2
    have hleft : counted left = names.map .name := by
      have hp : p.components = p.parts.1.components ++ counted p.parts.2 := rfl
      rw [← hdrop, hp, List.drop_append, List.drop_eq_nil_of_le hlen, List.nil_append]
      exact counted_dropComponents _ _
    refine ⟨ofParts .free (dropEndWhile isIdle left), ?_, ?_⟩
    · simp only [relativeTo?, if_neg hin, if_neg hb, left]
    · have hpre := dropEndWhile_isPrefix left
      rw [components_ofParts, counted_dropEndWhile, hleft]
      · rfl
      · intro piece hm
        exact not_mem_of_mem_parts ((dropComponents_suffix _ _).subset (hpre.subset hm))
      · intro _ piece hp
        exact isIdle_head_dropComponents _ p.parts.2 piece (head?_of_isPrefix hpre hp)

theorem fileName?_of_components {p : Path} {front : List Component} {name : Text}
    (h : p.components = front ++ [.name name]) : p.fileName? = some name := by
  rw [fileName?, h, List.getLast?_concat]

theorem components_of_fileName? {p : Path} {name : Text} (h : p.fileName? = some name) :
    ∃ front, p.components = front ++ [.name name] := by
  rw [fileName?] at h
  split at h
  · next n hl =>
    obtain ⟨front, hf⟩ := List.getLast?_eq_some_iff.mp hl
    exact ⟨front, by rw [hf, Option.some.inj h]⟩
  · cases h

theorem eq_append_of_splitName {name stem extension : Text}
    (h : splitName name = (stem, some extension)) :
    name = stem ++ '.' :: extension ∧ stem ≠ [] ∧ '.' ∉ extension := by
  rw [splitName] at h
  split at h
  · next last before rest hr =>
    have hc : Text.cut '.' name = (before :: rest).reverse ++ [last] := by
      rw [← List.reverse_reverse (Text.cut '.' name), hr, List.reverse_cons]
    dsimp only at h
    split at h
    · cases h
    · next hs =>
      cases h
      have hl : extension ∈ Text.cut '.' name := by simp [hc]
      refine ⟨?_, hs, Text.not_mem_of_mem_cut hl⟩
      rw [← Text.join_cut '.' name, hc, Text.join_concat _ (by simp), List.append_assoc]
      rfl
  · cases h

theorem splitName_append {stem extension : Text} (hs : stem ≠ []) (he : '.' ∉ extension) :
    splitName (stem ++ '.' :: extension) = (stem, some extension) := by
  obtain ⟨before, rest, hr⟩ := List.exists_cons_of_ne_nil
    (List.reverse_ne_nil_iff.mpr (Text.cut_ne_nil '.' stem))
  have hc : (Text.cut '.' (stem ++ '.' :: extension)).reverse = extension :: before :: rest := by
    rw [Text.cut_append, Text.cut_of_not_mem he, List.reverse_append, hr]
    rfl
  have hj : Text.join ['.'] (before :: rest).reverse = stem := by
    rw [← hr, List.reverse_reverse, Text.join_cut]
  simp only [splitName, hc, hj, if_neg hs]

end ScriptNotebook.Path
