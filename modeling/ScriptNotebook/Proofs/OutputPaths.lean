import ScriptNotebook.Proofs.CollectedTargets

/-!
Outputs through components.  Every output ends in the stem of its target with the suffix of
notebooks, and the output of a script collected in a folder keeps the names above the script.
-/
namespace ScriptNotebook

namespace Path

theorem isName_of_mem_components {p : Path} {name : Text} (h : .name name ∈ p.components) :
    IsName name := by
  rw [components] at h
  rcases List.mem_append.mp h with h | h
  · cases ha : p.parts.1 <;> simp [ha, Anchor.components] at h
  · obtain ⟨piece, hm, hp⟩ := List.mem_filterMap.mp h
    have hs := not_mem_of_mem_parts hm
    rw [Component.ofPiece?] at hp
    split at hp
    · cases hp
    · next hi =>
      split at hp
      · cases hp
      · next hu =>
        obtain rfl := Component.name.inj (Option.some.inj hp)
        have hi : piece ≠ [] ∧ piece ≠ ['.'] := by simpa [isIdle] using hi
        exact ⟨hi.1, hs, hi.2, hu⟩

theorem splitName_fst_isPrefix (name : Text) : (splitName name).1 <+: name := by
  rcases hs : splitName name with ⟨stem, _ | own⟩
  · have hname : stem = name := by
      rw [splitName] at hs
      split at hs
      · dsimp only at hs
        split at hs <;> cases hs
        rfl
      · cases hs
        rfl
    subst hname
    exact List.prefix_rfl
  · rw [(eq_append_of_splitName hs).1]
    exact List.prefix_append stem ('.' :: own)

theorem slash_not_mem_stem (p : Path) : '/' ∉ p.stem := by
  rw [stem]
  cases hn : p.fileName? with
  | none => simp
  | some name =>
    obtain ⟨front, hf⟩ := components_of_fileName? hn
    have hname : IsName name := isName_of_mem_components (by rw [hf]; simp)
    exact fun hm => hname.2.1 ((splitName_fst_isPrefix name).subset hm)

theorem isName_output (p : Path) : IsName (p.stem ++ notebookSuffix) := by
  have hlong : ∀ short : Text, short.length < 6 → p.stem ++ notebookSuffix ≠ short := by
    rintro _ hl rfl
    have hsuffix : notebookSuffix.length = 6 := by decide
    rw [List.length_append, hsuffix] at hl
    omega
  have hs : '/' ∉ p.stem ++ notebookSuffix := by
    rw [List.mem_append, not_or]
    exact ⟨slash_not_mem_stem p, by decide⟩
  exact ⟨hlong _ (by decide), hs, hlong _ (by decide), hlong _ (by decide)⟩

end Path

theorem exists_components_outputPath (target root outputDir : Path) :
    ∃ front, (outputPath target root outputDir).components =
      front ++ [.name (target.stem ++ notebookSuffix)] := by
  have hn := Path.isName_output target
  exact ⟨_, by rw [outputPath, Path.components_join (Path.parts_fst_name hn),
    Path.components_name hn]⟩

/-- The output of a script below the root keeps the names above the script. -/
theorem components_outputPath {target root : Path} {names : List Text} {name : Text}
    (h : target.components = root.components ++ names.map .name ++ [.name name])
    (outputDir : Path) :
    (outputPath target root outputDir).components =
      outputDir.components ++ (names ++ [target.stem ++ notebookSuffix]).map .name := by
  obtain ⟨above, hp, ha⟩ := Path.exists_parent h
  obtain ⟨relative, hr, hc⟩ := Path.exists_relativeTo ha
  have hn := Path.isName_output target
  have hrel : (target.parent?.bind fun above => above.relativeTo? root).getD ⟨[]⟩ = relative := by
    rw [hp, Option.bind_some, hr, Option.getD_some]
  rw [outputPath, hrel, Path.components_join (Path.parts_fst_name hn), Path.components_name hn,
    Path.components_join (Path.parts_fst_of_components hc), hc, List.map_append, List.append_assoc]
  rfl

end ScriptNotebook
