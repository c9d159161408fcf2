import Mathlib.Data.List.Lex
import ScriptNotebook.Text.Basic

/-!
The order of texts is lexicographic by code points, and it is the order of their bytes in UTF-8.
-/
namespace ScriptNotebook.Text

theorem before_iff_lex {s t : Text} :
    s.before t = true ↔ List.Lex (fun a b => a.toNat < b.toNat) s t := by
  induction s generalizing t with
  | nil => cases t <;> simp [before]
  | cons a s ih =>
    cases t with
    | nil => simp [before]
    | cons b t =>
      rw [before, List.cons_lex_cons_iff]
      split
      · next h => simp [h, ih]
      · next h => simp [h]

theorem before_trans {s t u : Text} (h : s.before t = true) (h' : t.before u = true) :
    s.before u = true := by
  rw [before_iff_lex] at h h' ⊢
  exact List.lex_trans Nat.lt_trans h h'

theorem before_of_not_before {s t : Text} (hne : s ≠ t) (h : ¬ s.before t = true) :
    t.before s = true := by
  have hchar : Std.Trichotomous fun a b : Char => a.toNat < b.toNat :=
    ⟨fun a b hab hba => Char.toNat_inj.mp (by omega)⟩
  rw [before_iff_lex] at h ⊢
  by_contra h'
  exact hne (Std.Trichotomous.trichotomous s t h h')

def utf8 (t : Text) : List UInt8 := t.flatMap String.utf8EncodeChar

/-- The bytes of a character decide the order, whatever follows them. -/
theorem encode_append_lt {a b : Char} (h : a.toNat < b.toNat) (s t : List UInt8) :
    String.utf8EncodeChar a ++ s < String.utf8EncodeChar b ++ t := by
  have hb : b.val.toNat < 0x110000 := by
    rcases b.valid with hb | ⟨-, hb⟩ <;> omega
  have h12 : ∀ n, n / 4096 = n / 64 / 64 := by omega
  have h18 : ∀ n, n / 262144 = n / 64 / 64 / 64 := by omega
  have hfirst : ∀ n, (n % 8 + 240) % 256 = n % 8 + 240 := by omega
  have hlater : ∀ n, (n % 64 + 128) % 256 = n % 64 + 128 := by omega
  rw [Char.toNat, Char.toNat] at h
  -- Both are written in digits to base 64, as many as they need.
  simp only [String.utf8EncodeChar, h12, h18]
  split_ifs <;>
    simp only [List.cons_append, List.nil_append, List.cons_lt_cons_iff, UInt8.lt_iff_toNat_lt,
      ← UInt8.toNat_inj, UInt8.toNat_ofNat', Nat.reducePow, hfirst, hlater] <;>
    omega

theorem utf8_lt_of_before {s t : Text} (h : s.before t = true) : s.utf8 < t.utf8 := by
  induction before_iff_lex.mp h with
  | @nil b t =>
    obtain ⟨first, rest, hb⟩ := List.exists_cons_of_ne_nil (String.utf8EncodeChar_ne_nil (c := b))
    rw [utf8, utf8, List.flatMap_cons, hb]
    exact List.nil_lt_cons first _
  | @cons c s t hst ih =>
    exact List.Lex.append_left _ (ih (before_iff_lex.mpr hst)) _
  | @rel a s b t hab => exact encode_append_lt hab (utf8 s) (utf8 t)

/-- The order of texts is that of their bytes in UTF-8. -/
theorem before_iff_utf8_lt {s t : Text} : s.before t = true ↔ s.utf8 < t.utf8 := by
  refine ⟨utf8_lt_of_before, fun h => ?_⟩
  by_contra hn
  by_cases hst : s = t
  · exact List.lt_irrefl t.utf8 (hst ▸ h)
  · exact List.lt_asymm h (utf8_lt_of_before (before_of_not_before hst hn))

end ScriptNotebook.Text
