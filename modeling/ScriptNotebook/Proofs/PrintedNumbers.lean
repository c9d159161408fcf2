import ScriptNotebook.Json.Form

/-!
Printed numbers.  Integers and doubles are printed as numerals: a sign, digits and perhaps a
fraction and an exponent.  A numeral is read as itself in front of anything that is no part of a
number.
-/
namespace ScriptNotebook

namespace Text

theorem isDigit_of_mem_decimal {n : Nat} {c : Char} (h : c ∈ decimal n) : isDigit c = true := by
  have hd := Nat.isDigit_of_mem_toDigits (by decide) (by decide) h
  simpa [isDigit, Char.isDigit, Char.le_def] using hd

theorem decimal_ne_nil (n : Nat) : decimal n ≠ [] := Nat.toDigits_ne_nil

theorem head?_decimal {n : Nat} (h : 0 < n) : (decimal n).head? ≠ some '0' := by
  induction n using Nat.strongRecOn with
  | ind n ih =>
    rw [decimal]
    by_cases hn : n < 10
    · have hdigit : ∀ m < 10, 0 < m → [m.digitChar].head? ≠ some '0' := by decide
      rw [Nat.toDigits_of_lt_base hn]
      exact hdigit n hn h
    · rw [Nat.toDigits_of_base_le (by decide) (Nat.le_of_not_lt hn)]
      obtain ⟨c, digits, hc⟩ := List.exists_cons_of_ne_nil (decimal_ne_nil (n / 10))
      have hfront := ih (n / 10) (by omega) (by omega)
      rw [hc] at hfront
      rw [← decimal, hc]
      exact hfront

end Text

namespace Json

namespace Numeral

def signText (negative : Bool) : Text := if negative then ['-'] else []

def fractionText : Option Text → Text
  | none => []
  | some ds => '.' :: ds

def exponentText : Option (Bool × Text) → Text
  | none => []
  | some (negative, ds) => 'e' :: (if negative then '-' else '+') :: ds

def text (n : Numeral) : Text :=
  signText n.negative ++ (n.whole ++ (fractionText n.fraction ++ exponentText n.exponent))

/-- Digits, and at least one of them. -/
structure AreDigits (ds : Text) : Prop where
  ne_nil : ds ≠ []
  digit : ∀ c ∈ ds, isDigit c = true

theorem areDigits_decimal (n : Nat) : AreDigits (Text.decimal n) :=
  ⟨Text.decimal_ne_nil n, fun _ hc => Text.isDigit_of_mem_decimal hc⟩

/-- The grammar has the numeral: there are digits where it asks for them, and the first one is a
zero only if it stands alone. -/
structure IsProper (n : Numeral) : Prop where
  whole : AreDigits n.whole
  noLeadingZero : n.whole = ['0'] ∨ n.whole.head? ≠ some '0'
  fraction : ∀ ds ∈ n.fraction, AreDigits ds
  exponent : ∀ e ∈ n.exponent, AreDigits e.2

end Numeral

open Numeral (AreDigits signText fractionText exponentText)

namespace Form

/-- What no number goes on with. -/
def EndsNumber (rest : Text) : Prop :=
  ∀ c ∈ rest.head?, isDigit c = false ∧ c ≠ '.' ∧ c ≠ 'e' ∧ c ≠ 'E'

theorem endsNumber_cons {c : Char} (h : isDigit c = false ∧ c ≠ '.' ∧ c ≠ 'e' ∧ c ≠ 'E')
    (rest : Text) : EndsNumber (c :: rest) := by
  intro d hd
  obtain rfl := Option.some.inj hd
  exact h

theorem digits?_append {ds rest : Text} (hd : AreDigits ds)
    (hr : ∀ c ∈ rest.head?, isDigit c = false) : digits? (ds ++ rest) = some (ds, rest) := by
  have htake : rest.takeWhile isDigit = [] ∧ rest.dropWhile isDigit = rest := by
    cases rest with
    | nil => simp
    | cons c rest => simp [hr c rfl]
  have hdigits : digits (ds ++ rest) = (ds, rest) := by
    rw [digits, List.takeWhile_append_of_pos hd.digit, List.dropWhile_append_of_pos hd.digit]
    simp [htake]
  obtain ⟨c, cs, hc⟩ := List.exists_cons_of_ne_nil hd.ne_nil
  rw [digits?, hdigits, hc]

theorem whole?_append {whole rest : Text} (hd : AreDigits whole)
    (hz : whole = ['0'] ∨ whole.head? ≠ some '0') (hr : ∀ c ∈ rest.head?, isDigit c = false) :
    whole? (whole ++ rest) = some (whole, rest) := by
  rcases hz with rfl | hz
  · rfl
  · have hread := digits?_append hd hr
    obtain ⟨c, cs, rfl⟩ := List.exists_cons_of_ne_nil hd.ne_nil
    have hc : c ≠ '0' := fun h => hz (by rw [h]; rfl)
    rw [List.cons_append] at hread ⊢
    rw [whole?, hread]
    exact fun t h => hc (List.cons.inj h).1

theorem fraction?_append {fraction : Option Text} (hf : ∀ ds ∈ fraction, AreDigits ds)
    {rest : Text} (hr : ∀ c ∈ rest.head?, isDigit c = false ∧ c ≠ '.') :
    fraction? (fractionText fraction ++ rest) = some (fraction, rest) := by
  cases fraction with
  | none =>
    have hpoint : ∀ t, rest ≠ '.' :: t := by
      rintro t rfl
      exact (hr '.' rfl).2 rfl
    simp only [fractionText, List.nil_append]
    rw [fraction?]
    exact hpoint
  | some ds =>
    have hread := digits?_append (hf ds rfl) fun c hc => (hr c hc).1
    simp [fractionText, fraction?, hread]

theorem exponent?_append {exponent : Option (Bool × Text)}
    (he : ∀ e ∈ exponent, AreDigits e.2) {rest : Text} (hr : EndsNumber rest) :
    exponent? (exponentText exponent ++ rest) = some (exponent, rest) := by
  cases exponent with
  | none =>
    cases rest with
    | nil => rfl
    | cons c rest =>
      obtain ⟨-, -, hsmall, hlarge⟩ := hr c rfl
      simp [exponentText, exponent?, hsmall, hlarge]
  | some e =>
    obtain ⟨negative, ds⟩ := e
    have hread := digits?_append (he _ rfl) fun c hc => (hr c hc).1
    cases negative <;> simp [exponentText, exponent?, hread]

/-- A numeral in front of something else is read as itself. -/
theorem numeral?_text {n : Numeral} (hn : n.IsProper) {rest : Text} (hr : EndsNumber rest) :
    numeral? (n.text ++ rest) = some (n, rest) := by
  obtain ⟨negative, whole, fraction, exponent⟩ := n
  have hexponent : ∀ c ∈ (exponentText exponent ++ rest).head?, isDigit c = false ∧ c ≠ '.' := by
    cases exponent with
    | none => exact fun c hc => ⟨(hr c hc).1, (hr c hc).2.1⟩
    | some e => exact fun c hc => by cases hc; decide
  have hfraction : ∀ c ∈ (fractionText fraction ++ (exponentText exponent ++ rest)).head?,
      isDigit c = false := by
    cases fraction with
    | none => exact fun c hc => (hexponent c hc).1
    | some ds => exact fun c hc => by cases hc; decide
  have hwhole := whole?_append hn.whole hn.noLeadingZero hfraction
  have hread := fraction?_append hn.fraction hexponent
  cases negative with
  | true =>
    simp [Numeral.text, signText, numeral?, hwhole, hread, exponent?_append hn.exponent hr]
  | false =>
    -- A digit stands where a sign might.
    have hsign : ∀ t, whole ++ (fractionText fraction ++ (exponentText exponent ++ rest)) ≠
        '-' :: t := by
      intro t h
      obtain ⟨c, cs, hc⟩ := List.exists_cons_of_ne_nil hn.whole.ne_nil
      have hdigit : isDigit c = true := hn.whole.digit c (by rw [hc]; simp)
      simp only at hc
      rw [hc, List.cons_append] at h
      rw [(List.cons.inj h).1] at hdigit
      exact absurd hdigit (by decide)
    simp only [Numeral.text, signText, Bool.false_eq_true, if_false, List.nil_append,
      List.append_assoc]
    rw [numeral?]
    · simp [hwhole, hread, exponent?_append hn.exponent hr]
    · exact hsign

end Form

namespace Numeral

def ofInt : Int → Numeral
  | .ofNat n => ⟨false, Text.decimal n, none, none⟩
  | .negSucc n => ⟨true, Text.decimal (n + 1), none, none⟩

theorem text_ofInt (n : Int) : (ofInt n).text = Text.decimalInt n := by
  cases n <;> simp [ofInt, text, signText, fractionText, exponentText, Text.decimalInt]

theorem decimal_noLeadingZero (n : Nat) :
    Text.decimal n = ['0'] ∨ (Text.decimal n).head? ≠ some '0' := by
  rcases Nat.eq_zero_or_pos n with rfl | hn
  · exact Or.inl rfl
  · exact Or.inr (Text.head?_decimal hn)

theorem isProper_ofInt (n : Int) : (ofInt n).IsProper := by
  cases n with
  | ofNat n =>
    exact ⟨areDigits_decimal n, decimal_noLeadingZero n, by simp [ofInt], by simp [ofInt]⟩
  | negSucc n =>
    exact ⟨areDigits_decimal (n + 1), decimal_noLeadingZero (n + 1), by simp [ofInt],
      by simp [ofInt]⟩

theorem isDigit_of_mem_zeros {n : Nat} : ∀ c ∈ List.replicate n '0', isDigit c = true := by
  intro c hc
  rw [List.eq_of_mem_replicate hc]
  rfl

theorem areDigits_append {ds es : Text} (hne : ds ++ es ≠ []) (hd : ∀ c ∈ ds, isDigit c = true)
    (he : ∀ c ∈ es, isDigit c = true) : AreDigits (ds ++ es) := by
  refine ⟨hne, fun c hc => ?_⟩
  rcases List.mem_append.mp hc with hc | hc
  · exact hd c hc
  · exact he c hc

theorem areDigits_take {ds : Text} (hd : AreDigits ds) {n : Nat} (hn : 0 < n) :
    AreDigits (ds.take n) := by
  refine ⟨fun h => ?_, fun c hc => hd.digit c (List.mem_of_mem_take hc)⟩
  rcases List.take_eq_nil_iff.mp h with h | h
  · omega
  · exact hd.ne_nil h

theorem areDigits_drop {ds : Text} (hd : AreDigits ds) {n : Nat} (hn : n < ds.length) :
    AreDigits (ds.drop n) := by
  refine ⟨fun h => ?_, fun c hc => hd.digit c (List.mem_of_mem_drop hc)⟩
  have hle := List.drop_eq_nil_iff.mp h
  omega

theorem head?_take_ne {ds : Text} (h : ds.head? ≠ some '0') (n : Nat) :
    (ds.take n).head? ≠ some '0' := by
  rw [List.head?_take]
  split <;> simp [h]

def ofDouble (x : Double) : Numeral :=
  let (value, last) := x.shortest
  let digits := Text.decimal value
  let point : Int := digits.length + last
  if value = 0 then ⟨x.negative, ['0'], some ['0'], none⟩
  else if 0 < point ∧ point ≤ 16 then
    if 0 ≤ last then ⟨x.negative, digits ++ List.replicate last.toNat '0', some ['0'], none⟩
    else ⟨x.negative, digits.take point.toNat, some (digits.drop point.toNat), none⟩
  else if -5 < point ∧ point ≤ 0 then
    ⟨x.negative, ['0'], some (List.replicate (-point).toNat '0' ++ digits), none⟩
  else
    ⟨x.negative, digits.take 1, if digits.length = 1 then none else some (digits.drop 1),
      some (decide (point - 1 < 0), Text.decimal (point - 1).natAbs)⟩

theorem text_ofDouble (x : Double) : (ofDouble x).text = x.text := by
  rcases hs : x.shortest with ⟨value, last⟩
  simp only [ofDouble, Double.text, hs]
  split
  · rfl
  split
  · split <;> simp [text, signText, fractionText, exponentText]
  split
  · simp [text, signText, fractionText, exponentText]
  · by_cases hl : (Text.decimal value).length = 1 <;>
      simp [text, signText, fractionText, exponentText, hl]

theorem isProper_ofDouble (x : Double) : (ofDouble x).IsProper := by
  rcases hs : x.shortest with ⟨value, last⟩
  have hdigits := areDigits_decimal value
  have hlength := List.length_pos_iff.mpr hdigits.ne_nil
  have hone : AreDigits ['0'] := areDigits_decimal 0
  have hzero : 0 < value → (Text.decimal value).head? ≠ some '0' := Text.head?_decimal
  simp only [ofDouble, hs]
  split
  · exact ⟨hone, Or.inl rfl, by simp [hone], by simp⟩
  next hv =>
  replace hzero := hzero (Nat.pos_of_ne_zero hv)
  split
  · next hpoint =>
    split
    · have hwhole := areDigits_append (by simp [hdigits.ne_nil]) hdigits.digit
        (isDigit_of_mem_zeros (n := last.toNat))
      have hhead : (Text.decimal value ++ List.replicate last.toNat '0').head? ≠ some '0' := by
        rw [List.head?_append, Option.or_of_isSome (by simp [hdigits.ne_nil])]
        exact hzero
      exact ⟨hwhole, Or.inr hhead, by simp [hone], by simp⟩
    · have hbefore : 0 < ((Text.decimal value).length + last).toNat := by omega
      have hbehind : ((Text.decimal value).length + last).toNat < (Text.decimal value).length := by
        omega
      exact ⟨areDigits_take hdigits hbefore, Or.inr (head?_take_ne hzero _),
        by simp [areDigits_drop hdigits hbehind], by simp⟩
  split
  · have hfraction (n : Nat) : AreDigits (List.replicate n '0' ++ Text.decimal value) :=
      areDigits_append (by simp [hdigits.ne_nil]) isDigit_of_mem_zeros hdigits.digit
    exact ⟨hone, Or.inl rfl, by simp [hfraction], by simp⟩
  · refine ⟨areDigits_take hdigits Nat.one_pos, Or.inr (head?_take_ne hzero 1), ?_,
      by simp [areDigits_decimal]⟩
    split
    · simp
    · intro ds hds
      obtain rfl := Option.some.inj hds
      exact areDigits_drop hdigits (by omega)

end Numeral

end Json

end ScriptNotebook
