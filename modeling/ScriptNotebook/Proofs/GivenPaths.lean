import ScriptNotebook.CommandLine.Arguments
import ScriptNotebook.Proofs.Landing

/-!
The paths that a command line gives.  An empty value is refused where a path is wanted, so that no
path is empty in what comes of an accepted command line.
-/
namespace ScriptNotebook.CommandLine

/-- None of the paths given so far is empty. -/
structure Taken.NoEmptyPath (taken : Taken) : Prop where
  outdir : ∀ p, taken.outdir = some p → p.text ≠ []
  settingsFile : ∀ p, taken.settingsFile = some p → p.text ≠ []
  path : ∀ p, taken.path = some p → p.text ≠ []

namespace Taken

variable {taken after inner outer : Taken} {opt : Opt} {value : Text} {topic : Topic}

theorem noEmptyPath_nothing : nothing.NoEmptyPath := by
  constructor <;> exact fun _ h => (by cases h)

theorem text_ne_nil_of_pathValue {p : Path} (h : pathValue value = .ok p) : p.text ≠ [] := by
  rw [pathValue] at h
  split at h
  · cases h
  · next hne =>
    obtain rfl := Except.ok.inj h
    exact hne

theorem once_eq_ok {α : Type} {field set : Option α} {given : Except UsageError α}
    (h : once field given = .ok set) : ∃ a, given = .ok a ∧ set = some a := by
  cases field with
  | some a => cases h
  | none =>
    obtain ⟨a, ha, rfl⟩ := map_eq_ok.mp h
    exact ⟨a, ha, rfl⟩

theorem text_ne_nil_of_once {field set : Option Path} (h : once field (pathValue value) = .ok set) :
    ∀ p, set = some p → p.text ≠ [] := by
  obtain ⟨a, ha, rfl⟩ := once_eq_ok h
  rintro p ⟨⟩
  exact text_ne_nil_of_pathValue ha

theorem NoEmptyPath.setValue (hn : taken.NoEmptyPath) (h : taken.setValue opt value = .ok after) :
    after.NoEmptyPath := by
  cases opt with
  | outdir =>
    obtain ⟨set, hs, rfl⟩ := map_eq_ok.mp h
    exact ⟨text_ne_nil_of_once hs, hn.settingsFile, hn.path⟩
  | settingsFile =>
    obtain ⟨set, hs, rfl⟩ := map_eq_ok.mp h
    exact ⟨hn.outdir, text_ne_nil_of_once hs, hn.path⟩
  | extension | writer | logFormat =>
    obtain ⟨set, hs, rfl⟩ := map_eq_ok.mp h
    exact ⟨hn.outdir, hn.settingsFile, hn.path⟩
  | recursive | verbose | help | version => cases h

theorem NoEmptyPath.setFlag (hn : taken.NoEmptyPath) (h : taken.setFlag topic opt = .ok after) :
    after.NoEmptyPath := by
  cases opt with
  | recursive =>
    rw [Taken.setFlag] at h
    split at h
    · cases h
    · obtain rfl := Except.ok.inj h
      exact ⟨hn.outdir, hn.settingsFile, hn.path⟩
  | verbose =>
    obtain rfl := Except.ok.inj h
    exact ⟨hn.outdir, hn.settingsFile, hn.path⟩
  | outdir | extension | writer | settingsFile | logFormat | help | version => cases h

theorem NoEmptyPath.setPath (hn : taken.NoEmptyPath) (h : taken.setPath value = .ok after) :
    after.NoEmptyPath := by
  rw [Taken.setPath] at h
  split at h
  · cases h
  · obtain ⟨set, hs, rfl⟩ := map_eq_ok.mp h
    obtain ⟨p, hp, hset⟩ := bind_eq_ok.mp hs
    obtain rfl := Except.ok.inj hset
    refine ⟨hn.outdir, hn.settingsFile, fun q hq => ?_⟩
    obtain rfl := Option.some.inj hq
    exact text_ne_nil_of_pathValue hp

theorem NoEmptyPath.within (hi : inner.NoEmptyPath) (ho : outer.NoEmptyPath) :
    (inner.within outer).NoEmptyPath := by
  refine ⟨fun _ h => (by cases h), fun p h => ?_, fun _ h => (by cases h)⟩
  rcases Option.or_eq_some_iff.mp h with h | ⟨-, h⟩
  · exact hi.settingsFile p h
  · exact ho.settingsFile p h

variable {known : Opt → Bool} {wanting : Option Opt} {arg : Text}

theorem NoEmptyPath.takeLong (hn : taken.NoEmptyPath) {name : Text} {given : Option Text}
    (h : takeLong topic known name given taken = .ok (after, wanting)) : after.NoEmptyPath := by
  rw [CommandLine.takeLong] at h
  split at h
  · cases h
  · split at h
    · obtain ⟨set, hs, ⟨⟩⟩ := map_eq_ok.mp h
      exact hn.setValue (mapError_eq_ok.mp hs)
    · split at h
      · obtain ⟨rfl, -⟩ := Prod.mk.inj (Except.ok.inj h)
        exact hn
      · obtain ⟨set, hs, ⟨⟩⟩ := map_eq_ok.mp h
        exact hn.setFlag hs

theorem NoEmptyPath.takeLetters (hn : taken.NoEmptyPath) {letters : Text}
    (h : takeLetters topic known letters taken = .ok (after, wanting)) : after.NoEmptyPath := by
  induction letters generalizing taken with
  | nil =>
    obtain ⟨rfl, -⟩ := Prod.mk.inj (Except.ok.inj h)
    exact hn
  | cons letter rest ih =>
    rw [CommandLine.takeLetters] at h
    split at h
    · cases h
    · split at h
      · split at h
        · obtain ⟨rfl, -⟩ := Prod.mk.inj (Except.ok.inj h)
          exact hn
        all_goals
          obtain ⟨set, hs, ⟨⟩⟩ := map_eq_ok.mp h
          exact hn.setValue (mapError_eq_ok.mp hs)
      · split at h
        · cases h
        · next flagged hf => exact ih (hn.setFlag hf) h

theorem NoEmptyPath.takeOption (hn : taken.NoEmptyPath)
    (h : takeOption topic known arg taken = .ok (after, wanting)) : after.NoEmptyPath := by
  rw [CommandLine.takeOption.eq_def] at h
  split at h
  · exact hn.takeLong h
  · exact hn.takeLetters h
  · cases h

end Taken

section

variable {taken after : Taken} {wanting : Option Opt} {args : List Text} {given : Arguments}

theorem noEmptyPath_of_leafArguments {topic : Topic} (hn : taken.NoEmptyPath)
    (h : leafArguments topic taken wanting args = .ok after) : after.NoEmptyPath := by
  induction args generalizing taken wanting with
  | nil =>
    cases wanting with
    | none => exact Except.ok.inj h ▸ hn
    | some opt => cases h
  | cons arg rest ih =>
    cases wanting with
    | some opt =>
      rw [leafArguments] at h
      split at h
      · split at h
        · next set hs => exact ih (hn.setValue hs) h
        · cases h
      · cases h
    | none =>
      rw [leafArguments] at h
      split at h
      · split at h
        · exact Except.ok.inj h ▸ hn
        · cases h
      split at h
      · cases h
      split at h
      · cases h
      · next set next hs => exact ih (hn.takeOption hs) h

theorem noEmptyPath_of_settingsArguments {late : Option UsageError} (hn : taken.NoEmptyPath)
    (h : settingsArguments taken late wanting args = .ok given) : given.taken.NoEmptyPath := by
  induction args generalizing taken late wanting with
  | nil =>
    rw [settingsArguments.eq_def] at h
    cases wanting with
    | none =>
      dsimp only at h
      split at h
      · cases h
      · split at h <;> cases h
    | some opt => cases h
  | cons arg rest ih =>
    cases wanting with
    | some opt =>
      rw [settingsArguments] at h
      split at h
      · split at h
        · next set hs => exact ih (hn.setValue hs) h
        · exact ih hn h
      · cases h
    | none =>
      have hwithin : ∀ {topic inner}, leafArguments topic .nothing none rest = .ok inner →
          (inner.within taken).NoEmptyPath :=
        fun hi => (noEmptyPath_of_leafArguments Taken.noEmptyPath_nothing hi).within hn
      rw [settingsArguments.eq_def] at h
      dsimp only at h
      -- The two commands.
      iterate 2
        split at h
        · split at h
          · cases h
          · next inner hi =>
            split at h
            · cases h
            · exact Except.ok.inj h ▸ hwithin hi
      split at h
      · cases h
      split at h
      · split at h
        · exact ih hn h
        · cases h
      split at h
      · cases h
      split at h
      · cases h
      split at h
      · cases h
      · next set next hs => exact ih (hn.takeOption hs) h

theorem noEmptyPath_of_finish (hn : taken.NoEmptyPath) (h : finish taken = .ok given) :
    given.taken.NoEmptyPath := by
  rw [finish] at h
  split at h
  · obtain rfl := Except.ok.inj h
    exact hn
  · cases h

theorem noEmptyPath_of_pathArguments (hn : taken.NoEmptyPath)
    (h : pathArguments taken args = .ok given) : given.taken.NoEmptyPath := by
  induction args generalizing taken with
  | nil => exact noEmptyPath_of_finish hn h
  | cons arg rest ih =>
    rw [pathArguments] at h
    split at h
    · next set hs => exact ih (hn.setPath hs) h
    · cases h

theorem noEmptyPath_of_convertArguments (hn : taken.NoEmptyPath)
    (h : convertArguments taken wanting args = .ok given) : given.taken.NoEmptyPath := by
  induction args generalizing taken wanting with
  | nil =>
    cases wanting with
    | none => exact noEmptyPath_of_finish hn h
    | some opt => cases h
  | cons arg rest ih =>
    cases wanting with
    | some opt =>
      rw [convertArguments] at h
      split at h
      · split at h
        · next set hs => exact ih (hn.setValue hs) h
        · cases h
      · cases h
    | none =>
      rw [convertArguments] at h
      split at h
      · exact noEmptyPath_of_pathArguments hn h
      split at h
      · split at h
        · next set hs => exact ih (hn.setPath hs) h
        · cases h
      split at h
      · cases h
      · next set next hs => exact ih (hn.takeOption hs) h

/-- An accepted command line gives no empty path. -/
theorem noEmptyPath_of_parse (h : Arguments.parse args = .ok given) :
    given.taken.NoEmptyPath := by
  have hn := Taken.noEmptyPath_nothing
  rw [Arguments.parse.eq_def] at h
  split at h
  · exact noEmptyPath_of_convertArguments hn h
  · split at h
    · exact noEmptyPath_of_settingsArguments hn h
    · split at h
      · cases h
      · exact noEmptyPath_of_convertArguments hn h

end

end ScriptNotebook.CommandLine
