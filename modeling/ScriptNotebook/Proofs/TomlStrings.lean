import ScriptNotebook.Toml.Quoted

/-!
Quoted TOML strings are read as what was quoted, whichever of the four forms `Toml.quote` takes.
Escapes are undone one by one.  In the forms of several lines, quotes need care: three in a row
close the string wherever they stand, and the ones right behind them still belong to it.
-/
namespace ScriptNotebook.Toml

/-- What the reader does with a piece in front: it reads it as the character. -/
def Reads (read : Text → Option (Text × Text)) (piece : Text) (c : Char) : Prop :=
  ∀ rest, read (piece ++ rest) = (read rest).map fun r => (c :: r.1, r.2)

theorem Reads.eq_some {read : Text → Option (Text × Text)} {piece : Text} {c : Char}
    (h : Reads read piece c) {t u rest : Text} (hr : read u = some (t, rest)) :
    read (piece ++ u) = some (c :: t, rest) := by
  rw [h, hr]
  rfl

theorem Reads.flatMap {read : Text → Option (Text × Text)} {piece : Char → Text} {t u rest : Text}
    (h : ∀ c ∈ t, Reads read (piece c) c) (hr : read u = some ([], rest)) :
    read (t.flatMap piece ++ u) = some (t, rest) := by
  induction t with
  | nil => exact hr
  | cons c t ih =>
    rw [List.forall_mem_cons] at h
    rw [List.flatMap_cons, List.append_assoc]
    exact h.1.eq_some (ih h.2)

theorem isPlain_of_not_isControl {c : Char} (hn : c ≠ '\n') (h : isControl c = false) :
    isPlain c = true := by
  simp [isPlain, hn, h]

theorem newline_or_isPlain {c : Char} (h : isControl c = false) : c = '\n' ∨ isPlain c = true := by
  by_cases hn : c = '\n'
  · exact Or.inl hn
  · exact Or.inr (isPlain_of_not_isControl hn h)

theorem toNat_of_isControl {c : Char} (h : isControl c = true) : c.toNat < 0x80 := by
  simp [isControl] at h
  omega

theorem scalar?_escaped : ∀ n < 0x80,
    scalar? ((Text.hex 4 n).map Char.toUpper) = some (Char.ofNat n) := by decide

/-- A character is escaped by a letter or by four digits, or it stands for itself. -/
theorem escapeControl_cases (c : Char) :
    (∃ e, escaped? e = some c ∧ escapeControl c = ['\\', e]) ∨
      (∃ digits, digits.length = 4 ∧ scalar? digits = some c ∧
        escapeControl c = '\\' :: 'u' :: digits) ∨
      c ≠ '\\' ∧ isControl c = false ∧ escapeControl c = [c] := by
  by_cases hm : c ∈ ['\x08', '\t', '\x0c', '\r', '\\']
  · simp only [List.mem_cons, List.not_mem_nil, or_false] at hm
    rcases hm with rfl | rfl | rfl | rfl | rfl <;> exact Or.inl ⟨_, rfl, rfl⟩
  · simp only [List.mem_cons, List.not_mem_nil, or_false, not_or] at hm
    obtain ⟨hb, ht, hf, hr, hs⟩ := hm
    have hescape : escapeControl c = if isControl c then
        '\\' :: 'u' :: (Text.hex 4 c.toNat).map Char.toUpper else [c] := by
      rw [escapeControl] <;> assumption
    cases hc : isControl c with
    | true =>
      have hscalar := scalar?_escaped c.toNat (toNat_of_isControl hc)
      rw [Char.ofNat_toNat] at hscalar
      exact Or.inr (Or.inl ⟨_, by simp, hscalar, by simp [hescape, hc]⟩)
    | false => exact Or.inr (Or.inr ⟨hs, rfl, by simp [hescape, hc]⟩)

theorem head?_escapeControl {c d : Char} (h : (escapeControl c).head? = some d) :
    d = '\\' ∨ d = c ∧ isControl c = false := by
  rcases escapeControl_cases c with ⟨e, -, he⟩ | ⟨digits, -, -, he⟩ | ⟨-, hc, he⟩
  all_goals
    rw [he] at h
    obtain rfl := Option.some.inj h
  · exact Or.inl rfl
  · exact Or.inl rfl
  · exact Or.inr ⟨rfl, hc⟩

theorem not_mem_of_escaped? {e c : Char} (h : escaped? e = some c) :
    e ∉ ['u', 'U', ' ', '\t', '\n', '\r'] := by
  intro hm
  simp only [List.mem_cons, List.not_mem_nil, or_false] at hm
  rcases hm with rfl | rfl | rfl | rfl | rfl | rfl <;> cases h

theorem reads_basic?_escaped {e c : Char} (h : escaped? e = some c) : Reads basic? ['\\', e] c := by
  intro rest
  have he := not_mem_of_escaped? h
  simp only [List.mem_cons, List.not_mem_nil, or_false, not_or] at he
  rw [List.cons_append, List.singleton_append, basic?]
  · cases basic? rest <;> simp [h]
  all_goals simp_all

theorem reads_basic?_unit {digits : Text} {c : Char} (hlength : digits.length = 4)
    (h : scalar? digits = some c) : Reads basic? ('\\' :: 'u' :: digits) c := by
  intro rest
  match digits, hlength with
  | [_, _, _, _], _ =>
    simp only [List.cons_append, List.nil_append, basic?, h]
    cases basic? rest <;> rfl

theorem reads_basic?_self {c : Char} (hq : c ≠ '"') (hs : c ≠ '\\') (hp : isPlain c = true) :
    Reads basic? [c] c := by
  intro rest
  rw [List.singleton_append, basic?]
  · cases basic? rest <;> simp [hs, hp]
  all_goals simp_all

theorem reads_basic? (c : Char) : Reads basic? (escapeBasic c) c := by
  rw [escapeBasic]
  split
  · next hq =>
    subst hq
    exact reads_basic?_escaped rfl
  · next hq =>
    split
    · next hn =>
      subst hn
      exact reads_basic?_escaped rfl
    · next hn =>
      rcases escapeControl_cases c with ⟨e, he, hc⟩ | ⟨digits, hlength, hd, hc⟩ | ⟨hs, hp, hc⟩
      · exact hc ▸ reads_basic?_escaped he
      · exact hc ▸ reads_basic?_unit hlength hd
      · exact hc ▸ reads_basic?_self hq hs (isPlain_of_not_isControl hn hp)

theorem basic?_quoted (t rest : Text) :
    basic? (t.flatMap escapeBasic ++ '"' :: rest) = some (t, rest) :=
  Reads.flatMap (fun c _ => reads_basic? c) (by rw [basic?])

theorem reads_literal? {c : Char} (hq : c ≠ '\'') (hp : isPlain c = true) :
    Reads literal? [c] c := by
  intro rest
  rw [List.singleton_append, literal?]
  · cases literal? rest <;> simp [hp]
  all_goals simp_all

theorem literal?_quoted {t : Text} (h : ∀ c ∈ t, c ≠ '\'' ∧ isPlain c = true) (rest : Text) :
    literal? (t ++ '\'' :: rest) = some (t, rest) := by
  have hread : literal? (t.flatMap (fun c => [c]) ++ '\'' :: rest) = some (t, rest) :=
    Reads.flatMap (fun c hc => reads_literal? (h c hc).1 (h c hc).2) (by rw [literal?])
  rwa [List.flatMap_singleton'] at hread

theorem quotesAtEnd_replicate {quote : Char} {n : Nat} (hn : n ≤ 2) {rest : Text}
    (hr : rest.head? ≠ some quote) :
    quotesAtEnd quote (List.replicate n quote ++ rest) = (List.replicate n quote, rest) := by
  match n, hn with
  | 0, _ =>
    cases rest with
    | nil => rfl
    | cons a rest =>
      have ha : a ≠ quote := fun h => hr (by rw [h]; rfl)
      cases rest <;> simp [quotesAtEnd, ha]
  | 1, _ =>
    cases rest with
    | nil => simp [quotesAtEnd]
    | cons a rest =>
      have ha : a ≠ quote := fun h => hr (by rw [h]; rfl)
      simp [quotesAtEnd, ha]
  | 2, _ => simp [quotesAtEnd, List.replicate]

theorem replicate_append_three (quote : Char) (n : Nat) (rest : Text) :
    List.replicate n quote ++ quote :: quote :: quote :: rest =
      quote :: quote :: quote :: (List.replicate n quote ++ rest) := by
  induction n with
  | zero => rfl
  | succ n ih => rw [List.replicate_succ, List.cons_append, ih, List.cons_append]

theorem ne_two_quotes {quote : Char} {u : Text} (h : u.head? ≠ some quote) :
    ∀ v, u ≠ quote :: quote :: v := by
  rintro v rfl
  exact h rfl

theorem ne_two_quotes_of_tail {quote : Char} {u : Text} (h : u.head? ≠ some quote) :
    ∀ v, quote :: u ≠ quote :: quote :: v := by
  intro v hv
  obtain rfl := (List.cons.inj hv).2
  exact h rfl

theorem endsLine_of_escaped? {e c : Char} (h : escaped? e = some c) (rest : Text) :
    endsLine (e :: rest) = false := by
  have he := not_mem_of_escaped? h
  simp only [List.mem_cons, List.not_mem_nil, or_false, not_or] at he
  rw [endsLine]
  all_goals simp_all

theorem reads_multiBasic?_escaped {e c : Char} (h : escaped? e = some c) :
    Reads (multiBasic? false) ['\\', e] c := by
  intro rest
  have he := not_mem_of_escaped? h
  simp only [List.mem_cons, List.not_mem_nil, or_false, not_or] at he
  have hline := endsLine_of_escaped? h rest
  rw [List.cons_append, List.singleton_append, multiBasic?]
  · cases multiBasic? false rest <;> simp [h, hline]
  all_goals simp_all

theorem reads_multiBasic?_unit {digits : Text} {c : Char} (hlength : digits.length = 4)
    (h : scalar? digits = some c) : Reads (multiBasic? false) ('\\' :: 'u' :: digits) c := by
  intro rest
  match digits, hlength with
  | [_, _, _, _], _ =>
    simp only [List.cons_append, List.nil_append, multiBasic?, h]
    cases multiBasic? false rest <;> rfl

theorem reads_multiBasic?_self {c : Char} (hq : c ≠ '"') (hs : c ≠ '\\')
    (hc : isControl c = false) : Reads (multiBasic? false) [c] c := by
  intro rest
  have hr : c ≠ '\r' := by
    rintro rfl
    cases hc
  have hplain := newline_or_isPlain hc
  rw [List.singleton_append, multiBasic?]
  · cases multiBasic? false rest <;> simp [hs, hplain]
  all_goals simp_all

theorem reads_multiBasic? {c : Char} (hq : c ≠ '"') :
    Reads (multiBasic? false) (escapeControl c) c := by
  rcases escapeControl_cases c with ⟨e, he, hc⟩ | ⟨digits, hlength, hd, hc⟩ | ⟨hs, hp, hc⟩
  · exact hc ▸ reads_multiBasic?_escaped he
  · exact hc ▸ reads_multiBasic?_unit hlength hd
  · exact hc ▸ reads_multiBasic?_self hq hs hp

theorem multiBasic?_quote {t u rest : Text} (hu : ∀ v, u ≠ '"' :: '"' :: v)
    (hr : multiBasic? false u = some (t, rest)) :
    multiBasic? false ('"' :: u) = some ('"' :: t, rest) := by
  rw [multiBasic?]
  · simp [hr, isPlain, isControl]
  all_goals simp_all

theorem multiBasic?_close {n : Nat} (hn : n ≤ 2) {rest : Text} (hr : rest.head? ≠ some '"') :
    multiBasic? false (List.replicate n '"' ++ '"' :: '"' :: '"' :: rest) =
      some (List.replicate n '"', rest) := by
  rw [replicate_append_three, multiBasic?, quotesAtEnd_replicate hn hr]

/-- Behind two quotes in a row, and for any other character, no bare quote is written. -/
theorem head?_escapeMulti {run : Nat} {c : Char} (h : run = 2 ∨ c ≠ '"') (t u : Text) :
    (escapeMulti run (c :: t) ++ u).head? ≠ some '"' := by
  rw [escapeMulti]
  split
  · next hc =>
    rw [if_pos (h.resolve_right (not_not_intro hc))]
    simp
  · next hc =>
    rcases escapeControl_cases c with ⟨e, -, he⟩ | ⟨digits, -, -, he⟩ | ⟨-, -, he⟩ <;>
      simp [he, hc]

/-- A text is read up to the quotes that close it, whatever quotes stand in front of it. -/
theorem multiBasic?_quoted (t : Text) (run : Nat) (hrun : run ≤ 2) {rest : Text}
    (hr : rest.head? ≠ some '"') :
    multiBasic? false (escapeMulti run t ++ '"' :: '"' :: '"' :: rest) = some (t, rest) := by
  induction t generalizing run with
  | nil => exact multiBasic?_close (n := 0) (by decide) hr
  | cons c t ih =>
    rw [escapeMulti]
    split
    · next hc =>
      subst hc
      split
      · exact (reads_multiBasic?_escaped rfl).eq_some (ih 0 (by decide))
      · next hne =>
        have hread := ih (run + 1) (by omega)
        -- A bare quote may be the first of three only where the text ends.
        cases t with
        | nil => exact multiBasic?_close (n := 1) (by decide) hr
        | cons d t =>
          by_cases hd : run + 1 = 2 ∨ d ≠ '"'
          · exact multiBasic?_quote (ne_two_quotes (head?_escapeMulti hd t _)) hread
          · rw [not_or, Decidable.not_not] at hd
            obtain ⟨hrun', rfl⟩ := hd
            obtain rfl : run = 0 := by omega
            cases t with
            | nil => exact multiBasic?_close (n := 2) (by decide) hr
            | cons e t =>
              have htail := head?_escapeMulti (c := e) (Or.inl rfl) t ('"' :: '"' :: '"' :: rest)
              exact multiBasic?_quote (ne_two_quotes_of_tail htail) hread
    · next hc =>
      rw [List.append_assoc]
      exact (reads_multiBasic? hc).eq_some (ih 0 (by decide))

theorem multiLiteral?_close {n : Nat} (hn : n ≤ 2) {rest : Text} (hr : rest.head? ≠ some '\'') :
    multiLiteral? (List.replicate n '\'' ++ '\'' :: '\'' :: '\'' :: rest) =
      some (List.replicate n '\'', rest) := by
  rw [replicate_append_three, multiLiteral?, quotesAtEnd_replicate hn hr]

theorem reads_multiLiteral? {c : Char} (hq : c ≠ '\'') (hc : isControl c = false) :
    Reads multiLiteral? [c] c := by
  intro rest
  have hr : c ≠ '\r' := by
    rintro rfl
    cases hc
  have hplain := newline_or_isPlain hc
  rw [List.singleton_append, multiLiteral?]
  · cases multiLiteral? rest <;> simp [hplain]
  all_goals simp_all

theorem multiLiteral?_quote {t u rest : Text} (hu : ∀ v, u ≠ '\'' :: '\'' :: v)
    (hr : multiLiteral? u = some (t, rest)) :
    multiLiteral? ('\'' :: u) = some ('\'' :: t, rest) := by
  rw [multiLiteral?]
  · simp [hr, isPlain, isControl]
  all_goals simp_all

theorem le_longestRun (c : Char) (run : Nat) (t : Text) : run ≤ longestRun c run t := by
  induction t generalizing run with
  | nil => exact Nat.le_refl run
  | cons d t ih =>
    rw [longestRun]
    split
    · exact Nat.le_of_succ_le (ih (run + 1))
    · exact Nat.le_max_left _ _

theorem longestRun_mono (c : Char) {run run' : Nat} (h : run ≤ run') (t : Text) :
    longestRun c run t ≤ longestRun c run' t := by
  induction t generalizing run run' with
  | nil => exact h
  | cons d t ih =>
    rw [longestRun, longestRun]
    split
    · exact ih (Nat.succ_le_succ h)
    · exact Nat.max_le.mpr ⟨Nat.le_trans h (Nat.le_max_left _ _), Nat.le_max_right _ _⟩

theorem not_mem_of_longestRun {c : Char} {t : Text} (h : longestRun c 0 t = 0) : c ∉ t := by
  induction t with
  | nil => exact List.not_mem_nil
  | cons d t ih =>
    rw [longestRun] at h
    split at h
    · have hle := le_longestRun c (0 + 1) t
      omega
    · next hd =>
      have hrest : longestRun c 0 t = 0 := by omega
      exact List.not_mem_cons_of_ne_of_not_mem (Ne.symm hd) (ih hrest)

theorem multiLiteral?_quoted {t : Text} (hc : ∀ c ∈ t, isControl c = false)
    (hrun : longestRun '\'' 0 t ≤ 2) {rest : Text} (hr : rest.head? ≠ some '\'') :
    multiLiteral? (t ++ '\'' :: '\'' :: '\'' :: rest) = some (t, rest) := by
  induction t with
  | nil => exact multiLiteral?_close (n := 0) (by decide) hr
  | cons c t ih =>
    rw [List.forall_mem_cons] at hc
    rw [longestRun] at hrun
    split at hrun
    · next hq =>
      subst hq
      have hread := ih hc.2 (Nat.le_trans (longestRun_mono '\'' (Nat.zero_le 1) t) hrun)
      cases t with
      | nil => exact multiLiteral?_close (n := 1) (by decide) hr
      | cons d t =>
        by_cases hd : d = '\''
        · subst hd
          cases t with
          | nil => exact multiLiteral?_close (n := 2) (by decide) hr
          | cons e t =>
            have he : e ≠ '\'' := by
              rintro rfl
              have hthree := le_longestRun '\'' (0 + 1 + 1 + 1) t
              simp only [longestRun, if_true] at hrun
              omega
            have htail : (e :: (t ++ '\'' :: '\'' :: '\'' :: rest)).head? ≠ some '\'' := by
              simp [he]
            exact multiLiteral?_quote (ne_two_quotes_of_tail htail) hread
        · have hhead : (d :: (t ++ '\'' :: '\'' :: '\'' :: rest)).head? ≠ some '\'' := by
            simp [hd]
          exact multiLiteral?_quote (ne_two_quotes hhead) hread
    · next hq =>
      exact (reads_multiLiteral? hq hc.1).eq_some (ih hc.2 (by omega))

theorem Style.of_eq_literal {t : Text} (h : Style.of t = .literal) :
    t ≠ [] ∧ ∀ c ∈ t, c ≠ '\'' ∧ isPlain c = true := by
  refine ⟨fun hnil => ?_, ?_⟩
  · rw [hnil] at h
    cases h
  rw [Style.of] at h
  split at h
  · cases h
  split at h
  · next hform =>
    simp only [Bool.and_eq_true, Bool.not_eq_true', List.any_eq_false, beq_iff_eq] at hform
    obtain ⟨⟨hcontrol, hsingle⟩, hnewline⟩ := hform
    intro c hc
    have hself : isControl c = false := by simpa using hcontrol c hc
    exact ⟨fun hq => not_mem_of_longestRun hsingle (hq ▸ hc),
      isPlain_of_not_isControl (hnewline c hc) hself⟩
  repeat' split at h
  all_goals cases h

theorem Style.of_eq_multiLiteral {t : Text} (h : Style.of t = .multiLiteral) :
    (∀ c ∈ t, isControl c = false) ∧ longestRun '\'' 0 t ≤ 2 := by
  rw [Style.of] at h
  split at h
  · cases h
  split at h
  · cases h
  split at h
  · cases h
  split at h
  · next hform =>
    simp only [Bool.and_eq_true, Bool.not_eq_true', List.any_eq_false, decide_eq_true_eq] at hform
    exact ⟨fun c hc => by simpa using hform.1 c hc, hform.2⟩
  split at h <;> cases h

theorem dropNewline_start {t u : Text}
    (hu : ∀ c ∈ u.head?, c ≠ '\r' ∧ (c = '\n' → '\n' ∈ t)) :
    dropNewline ((if t.any (· == '\n') then ['\n'] else []) ++ u) = u := by
  split
  · rfl
  · next hn =>
    have hnewline : '\n' ∉ t := by simpa using hn
    cases u with
    | nil => rfl
    | cons c u =>
      obtain ⟨hr, hmem⟩ := hu c rfl
      rw [List.nil_append, dropNewline]
      · intro v hv
        exact hnewline (hmem (List.cons.inj hv).1)
      · intro v hv
        exact hr (List.cons.inj hv).1

theorem head?_escapeMulti_quotes {t u : Text} {c : Char}
    (h : c ∈ (escapeMulti 0 t ++ '"' :: u).head?) :
    c = '"' ∨ c = '\\' ∨ c ∈ t ∧ isControl c = false := by
  cases t with
  | nil => exact Or.inl (Option.some.inj h).symm
  | cons d t =>
    rw [escapeMulti] at h
    split at h
    · exact Or.inl (Option.some.inj h).symm
    · have hne : escapeControl d ≠ [] := by
        rcases escapeControl_cases d with ⟨e, -, he⟩ | ⟨digits, -, -, he⟩ | ⟨-, -, he⟩ <;> simp [he]
      rw [List.append_assoc, List.head?_append, Option.or_of_isSome (by simp [hne])] at h
      rcases head?_escapeControl h with hs | ⟨rfl, hc⟩
      · exact Or.inr (Or.inl hs)
      · exact Or.inr (Or.inr ⟨List.mem_cons_self, hc⟩)

theorem head?_escapeBasic (c : Char) (u : Text) : (escapeBasic c ++ u).head? ≠ some '"' := by
  rw [escapeBasic]
  split
  · simp
  · next hq =>
    split
    · simp
    · rcases escapeControl_cases c with ⟨e, -, he⟩ | ⟨digits, -, -, he⟩ | ⟨-, -, he⟩ <;>
        simp [he, hq]

/-- A quoted text is read as the text, unless yet another quote follows. -/
theorem string?_quote (t : Text) {rest : Text} (hdouble : rest.head? ≠ some '"')
    (hsingle : rest.head? ≠ some '\'') : string? (quote t ++ rest) = some (t, rest) := by
  rw [quote]
  cases hstyle : Style.of t with
  | basic =>
    have htail : ∀ v, t.flatMap escapeBasic ++ '"' :: rest ≠ '"' :: '"' :: v := by
      cases t with
      | nil => exact ne_two_quotes_of_tail hdouble
      | cons c t =>
        rw [List.flatMap_cons, List.append_assoc]
        exact ne_two_quotes (head?_escapeBasic c _)
    simp only [List.cons_append, List.append_assoc, List.nil_append]
    rw [string?, basic?_quoted]
    exact htail
  | literal =>
    obtain ⟨hne, hchars⟩ := Style.of_eq_literal hstyle
    have htail : ∀ v, t ++ '\'' :: rest ≠ '\'' :: '\'' :: v := by
      obtain ⟨c, u, rfl⟩ := List.exists_cons_of_ne_nil hne
      have hc := (hchars c List.mem_cons_self).1
      exact ne_two_quotes (by simp [hc])
    simp only [List.cons_append, List.append_assoc, List.nil_append]
    rw [string?, literal?_quoted hchars]
    exact htail
  | multiBasic =>
    simp only [List.cons_append, List.append_assoc, List.nil_append]
    rw [string?, dropNewline_start, multiBasic?_quoted t 0 (Nat.zero_le 2) hdouble]
    intro c hc
    rcases head?_escapeMulti_quotes hc with rfl | rfl | ⟨hm, hcontrol⟩
    · exact ⟨by decide, fun h => absurd h (by decide)⟩
    · exact ⟨by decide, fun h => absurd h (by decide)⟩
    · refine ⟨fun h => ?_, fun h => h ▸ hm⟩
      subst h
      cases hcontrol
  | multiLiteral =>
    obtain ⟨hcontrol, hrun⟩ := Style.of_eq_multiLiteral hstyle
    simp only [List.cons_append, List.append_assoc, List.nil_append]
    rw [string?, dropNewline_start, multiLiteral?_quoted hcontrol hrun hsingle]
    intro c hc
    cases t with
    | nil =>
      obtain rfl := Option.some.inj hc
      exact ⟨by decide, fun h => absurd h (by decide)⟩
    | cons d t =>
      obtain rfl := Option.some.inj hc
      refine ⟨fun h => ?_, fun h => h ▸ List.mem_cons_self⟩
      have hd := hcontrol d List.mem_cons_self
      subst h
      cases hd

end ScriptNotebook.Toml
