import ScriptNotebook.Json.Printer
import ScriptNotebook.Proofs.PrintedNumbers

/-!
Printed JSON is read as what it is.  The forms of strings and of whole values are given outright,
and the grammar takes a printed value to its form whatever the indentation.
-/
namespace ScriptNotebook

namespace Text

theorem hexNumber?_concat (digits : Text) (c : Char) :
    hexNumber? (digits ++ [c]) = do return (← hexNumber? digits) * 16 + (← hexValue? c) := by
  rw [hexNumber?, List.foldl_append]
  rfl

theorem hexNumber?_hex (width n : Nat) :
    hexNumber? (hex width n) = some (n % Nat.pow 16 width) := by
  induction width generalizing n with
  | zero => simp [hex, hexNumber?, Nat.mod_one]
  | succ width ih =>
    have hlast := hexValue?_digitChar (n % 16) (Nat.mod_lt n (by decide))
    have hpow : Nat.pow 16 (width + 1) = 16 * Nat.pow 16 width := Nat.mul_comm _ 16
    have hvalue : n / 16 % Nat.pow 16 width * 16 + n % 16 = n % Nat.pow 16 (width + 1) := by
      rw [hpow, Nat.mod_mul, Nat.add_comm, Nat.mul_comm]
    rw [hex, hexNumber?_concat, ih, hlast, ← hvalue]
    rfl

end Text

namespace Json

def pieceOf (c : Char) : Piece :=
  if c.toNat < 0x20 ∧ c ∉ ['\x08', '\x0c', '\n', '\r', '\t'] then .unit c.toNat else .char c

namespace Form

theorem hexNumber?_hex_four {n : Nat} (h : n < 0x20) : Text.hexNumber? (Text.hex 4 n) = some n := by
  rw [Text.hexNumber?_hex, Nat.mod_eq_of_lt (Nat.lt_trans h (by decide))]

theorem pieces?_unit {n : Nat} (h : n < 0x20) (t : Text) :
    pieces? (['\\', 'u'] ++ Text.hex 4 n ++ t) =
      (pieces? t).map fun r => (.unit n :: r.1, r.2) := by
  have hn := hexNumber?_hex_four h
  have hd : ∃ a b c d, Text.hex 4 n = [a, b, c, d] := ⟨_, _, _, _, rfl⟩
  obtain ⟨a, b, c, d, hd⟩ := hd
  rw [hd] at hn ⊢
  simp only [List.cons_append, List.nil_append, pieces?, hn]
  cases pieces? t <;> rfl

theorem pieces?_cons {c : Char} (hc : c ≠ '"') (hs : c ≠ '\\') (hl : ¬ c.toNat < 0x20)
    (t : Text) : pieces? (c :: t) = (pieces? t).map fun r => (.char c :: r.1, r.2) := by
  rw [pieces?, if_neg (by simp [hs, hl])]
  · cases pieces? t <;> rfl
  all_goals simp_all

theorem pieces?_escapeChar (c : Char) (t : Text) :
    pieces? (escapeChar c ++ t) = (pieces? t).map fun r => (pieceOf c :: r.1, r.2) := by
  by_cases hm : c ∈ ['"', '\\', '\x08', '\x0c', '\n', '\r', '\t']
  · have hread : pieces? t = none ∨ ∃ r, pieces? t = some r := by
      cases pieces? t <;> simp
    simp only [List.mem_cons, List.not_mem_nil, or_false] at hm
    rcases hm with rfl | rfl | rfl | rfl | rfl | rfl | rfl <;>
      rcases hread with h | ⟨r, h⟩ <;> simp [escapeChar, pieces?, escaped?, pieceOf, h]
  · simp only [List.mem_cons, List.not_mem_nil, or_false, not_or] at hm
    obtain ⟨hquote, hslash, hb, hf, hn, hr, ht⟩ := hm
    have hescape : escapeChar c =
        if c.toNat < 0x20 then ['\\', 'u'] ++ Text.hex 4 c.toNat else [c] := by
      rw [escapeChar] <;> assumption
    rw [hescape]
    by_cases hc : c.toNat < 0x20
    · have hpiece : pieceOf c = .unit c.toNat := if_pos ⟨hc, by simp [hb, hf, hn, hr, ht]⟩
      rw [if_pos hc, pieces?_unit hc, hpiece]
    · have hpiece : pieceOf c = .char c := if_neg fun h => hc h.1
      rw [if_neg hc, List.singleton_append, pieces?_cons hquote hslash hc, hpiece]

/-- A printed string is read character by character, up to its closing quote. -/
theorem pieces?_flatMap_escapeChar (t rest : Text) :
    pieces? (t.flatMap escapeChar ++ '"' :: rest) = some (t.map pieceOf, rest) := by
  induction t with
  | nil => rw [List.flatMap_nil, List.nil_append, pieces?, List.map_nil]
  | cons c t ih =>
    rw [List.flatMap_cons, List.append_assoc, pieces?_escapeChar, ih]
    rfl

end Form

mutual

def toForm : Json → Form
  | null => .null
  | bool b => .bool b
  | integer n => .number (.ofInt n)
  | double x => .number (.ofDouble x)
  | string t => .string (t.map pieceOf)
  | array items => .array (itemForms items)
  | object members => .object (memberForms members)
termination_by structural v => v

def itemForms : List Json → List Form
  | [] => []
  | v :: vs => toForm v :: itemForms vs
termination_by structural vs => vs

def memberForms : List (Text × Json) → List (List Piece × Form)
  | [] => []
  | (k, v) :: ms => (k.map pieceOf, toForm v) :: memberForms ms
termination_by structural ms => ms

end

theorem itemForms_eq_map (vs : List Json) : itemForms vs = vs.map toForm := by
  induction vs with
  | nil => rfl
  | cons v vs ih => rw [itemForms, ih, List.map_cons]

theorem memberForms_eq_map (ms : List (Text × Json)) :
    memberForms ms = ms.map fun m => (m.1.map pieceOf, m.2.toForm) := by
  induction ms with
  | nil => rfl
  | cons m ms ih => rw [memberForms, ih, List.map_cons]

namespace Form

theorem skipSpace_newline (indent depth : Nat) (t : Text) :
    skipSpace (newline indent depth ++ t) = skipSpace t := by
  have hspace : ∀ c ∈ newline indent depth, isSpace c = true := by
    intro c hc
    rcases List.mem_cons.mp hc with rfl | hc
    · rfl
    · rw [List.eq_of_mem_replicate hc]
      rfl
  rw [skipSpace, List.dropWhile_append_of_pos hspace]
  rfl

theorem skipSpace_cons {c : Char} (h : isSpace c = false) (t : Text) :
    skipSpace (c :: t) = c :: t := by
  rw [skipSpace, List.dropWhile_cons_of_neg (by simp [h])]

theorem skipSpace_space (t : Text) : skipSpace (' ' :: t) = skipSpace t := rfl

theorem skipSpace_quote (k t : Text) : skipSpace (quote k ++ t) = quote k ++ t :=
  skipSpace_cons rfl _

theorem text_head {n : Numeral} (hn : n.IsProper) :
    ∃ c s, n.text = c :: s ∧ (c = '-' ∨ isDigit c = true) := by
  obtain ⟨negative, whole, fraction, exponent⟩ := n
  obtain ⟨c, s, rfl⟩ := List.exists_cons_of_ne_nil hn.whole.ne_nil
  cases negative with
  | true => exact ⟨'-', _, rfl, Or.inl rfl⟩
  | false => exact ⟨c, _, rfl, Or.inr (hn.whole.digit c List.mem_cons_self)⟩

theorem not_mem_of_sign_or_digit {c : Char} (h : c = '-' ∨ isDigit c = true) :
    c ∉ ['\x7b', '[', '"', 'n', 't', 'f', ']', ' ', '\n', '\r', '\t'] := by
  rcases h with rfl | h
  · decide
  · intro hm
    simp only [List.mem_cons, List.not_mem_nil, or_false] at hm
    rcases hm with rfl | rfl | rfl | rfl | rfl | rfl | rfl | rfl | rfl | rfl | rfl <;> cases h

theorem text_head_ne {n : Numeral} (hn : n.IsProper) :
    ∃ c s, n.text = c :: s ∧ isSpace c = false ∧ c ≠ ']' := by
  obtain ⟨c, s, hc, hs⟩ := text_head hn
  have hm := not_mem_of_sign_or_digit hs
  simp only [List.mem_cons, List.not_mem_nil, or_false, not_or] at hm
  exact ⟨c, s, hc, by simp [isSpace, hm], by simp [hm]⟩

/-- A printed value begins neither with white space nor with a bracket that closes. -/
theorem print_head (indent depth : Nat) (v : Json) :
    ∃ c s, print indent depth v = c :: s ∧ isSpace c = false ∧ c ≠ ']' := by
  cases v with
  | null => exact ⟨'n', _, rfl, rfl, by decide⟩
  | bool b =>
    cases b with
    | true => exact ⟨'t', _, rfl, rfl, by decide⟩
    | false => exact ⟨'f', _, rfl, rfl, by decide⟩
  | integer n =>
    rw [print, ← Numeral.text_ofInt]
    exact text_head_ne (Numeral.isProper_ofInt n)
  | double x =>
    rw [print, ← Numeral.text_ofDouble]
    exact text_head_ne (Numeral.isProper_ofDouble x)
  | string t => exact ⟨'"', _, rfl, rfl, by decide⟩
  | array items => cases items <;> exact ⟨'[', _, rfl, rfl, by decide⟩
  | object members => cases members <;> exact ⟨'\x7b', _, rfl, rfl, by decide⟩

theorem skipSpace_print (indent depth : Nat) (v : Json) (t : Text) :
    skipSpace (print indent depth v ++ t) = print indent depth v ++ t := by
  obtain ⟨c, s, hc, hs, -⟩ := print_head indent depth v
  rw [hc, List.cons_append, skipSpace_cons hs]

theorem value?_number {fuel : Nat} {n : Numeral} (hn : n.IsProper) {t rest : Text}
    (hr : EndsNumber rest) (ht : skipSpace t = n.text ++ rest) :
    value? (fuel + 1) t = some (.number n, rest) := by
  obtain ⟨c, s, hc, hs⟩ := text_head hn
  have hm := not_mem_of_sign_or_digit hs
  simp only [List.mem_cons, List.not_mem_nil, or_false, not_or] at hm
  have hread := numeral?_text hn hr
  rw [hc, List.cons_append] at ht hread
  rw [value?, ht]
  split <;> simp_all

/-- Behind an item or a member stands a comma or the line break before the end. -/
theorem endsNumber_printItems (indent depth d : Nat) (vs : List Json) (t : Text) :
    EndsNumber (printItems indent depth vs ++ newline indent d ++ t) := by
  cases vs <;> exact endsNumber_cons (by decide) _

theorem endsNumber_printMembers (indent depth d : Nat) (ms : List (Text × Json)) (t : Text) :
    EndsNumber (printMembers indent depth ms ++ newline indent d ++ t) := by
  rcases ms with _ | ⟨⟨k, v⟩, ms⟩ <;> exact endsNumber_cons (by decide) _

theorem value?_string {fuel : Nat} {s t rest : Text} (ht : skipSpace t = quote s ++ rest) :
    value? (fuel + 1) t = some (.string (s.map pieceOf), rest) := by
  rw [value?, ht, quote]
  simp only [List.cons_append, List.append_assoc, List.nil_append, pieces?_flatMap_escapeChar,
    Option.map_some]

theorem members?_last {fuel : Nat} {k t u rest after : Text} {v : Form}
    (hk : skipSpace t = quote k ++ ':' :: u) (hv : value? fuel u = some (v, after))
    (ha : skipSpace after = '\x7d' :: rest) :
    members? (fuel + 1) t = some ([(k.map pieceOf, v)], rest) := by
  have hcolon : skipSpace (':' :: u) = ':' :: u := skipSpace_cons rfl u
  rw [members?, hk, quote]
  simp [pieces?_flatMap_escapeChar, hcolon, hv, ha]

theorem members?_more {fuel : Nat} {k t u rest rest' after : Text} {v : Form}
    {ms : List (List Piece × Form)} (hk : skipSpace t = quote k ++ ':' :: u)
    (hv : value? fuel u = some (v, after)) (ha : skipSpace after = ',' :: rest)
    (hms : members? fuel rest = some (ms, rest')) :
    members? (fuel + 1) t = some ((k.map pieceOf, v) :: ms, rest') := by
  have hcolon : skipSpace (':' :: u) = ':' :: u := skipSpace_cons rfl u
  rw [members?, hk, quote]
  simp [pieces?_flatMap_escapeChar, hcolon, hv, ha, hms]

mutual

/-- A printed value is read as its form, whatever follows that is not part of a number. -/
theorem value?_print (indent depth : Nat) : (v : Json) → ∀ {fuel : Nat} {t rest : Text},
    2 * (print indent depth v).length ≤ fuel → EndsNumber rest →
    skipSpace t = print indent depth v ++ rest → value? (fuel + 1) t = some (v.toForm, rest)
  | .null, fuel, t, rest, _, _, ht => by
    rw [value?, ht]
    rfl
  | .bool true, fuel, t, rest, _, _, ht => by
    rw [value?, ht]
    rfl
  | .bool false, fuel, t, rest, _, _, ht => by
    rw [value?, ht]
    rfl
  | .integer n, fuel, t, rest, _, hr, ht =>
    value?_number (Numeral.isProper_ofInt n) hr (by rw [ht, print, Numeral.text_ofInt])
  | .double x, fuel, t, rest, _, hr, ht =>
    value?_number (Numeral.isProper_ofDouble x) hr (by rw [ht, print, Numeral.text_ofDouble])
  | .string s, fuel, t, rest, _, _, ht => value?_string ht
  | .array [], fuel, t, rest, _, _, ht => by
    rw [value?, ht]
    rfl
  | .object [], fuel, t, rest, _, _, ht => by
    rw [value?, ht]
    rfl
  | .array (v :: vs), fuel, t, rest, hf, _, ht => by
    simp only [print, List.length_cons, List.length_append] at hf
    obtain ⟨fuel, rfl⟩ : ∃ m, fuel = m + 2 := ⟨fuel - 2, by omega⟩
    have hlen : 2 * (print indent (depth + 1) v).length ≤ fuel := by omega
    have hfirst := value?_print indent (depth + 1) v hlen
      (endsNumber_printItems indent (depth + 1) depth vs (']' :: rest))
      (skipSpace_print indent (depth + 1) v _)
    have hitems := items?_printItems indent (depth + 1) vs (by omega) hfirst
    obtain ⟨c, s, hc, -, hclose⟩ := print_head indent (depth + 1) v
    rw [value?, ht, print]
    simp only [List.cons_append, List.append_assoc, skipSpace_newline, List.nil_append,
      skipSpace_print indent (depth + 1) v] at hitems ⊢
    rw [hc, List.cons_append] at hitems ⊢
    simp [hitems, hclose, toForm, itemForms]
  | .object ((k, v) :: ms), fuel, t, rest, hf, _, ht => by
    simp only [print, List.length_cons, List.length_append] at hf
    obtain ⟨fuel, rfl⟩ : ∃ m, fuel = m + 2 := ⟨fuel - 2, by omega⟩
    have hlen : 2 * (print indent (depth + 1) v).length ≤ fuel := by omega
    have hfirst := value?_print indent (depth + 1) v hlen
      (endsNumber_printMembers indent (depth + 1) depth ms ('\x7d' :: rest))
      ((skipSpace_space _).trans (skipSpace_print indent (depth + 1) v _))
    have hmembers := members?_printMembers indent (depth + 1) ms (by omega)
      (skipSpace_quote k _) hfirst
    rw [value?, ht, print]
    simp only [List.cons_append, List.append_assoc, skipSpace_newline, List.nil_append,
      skipSpace_quote] at hmembers ⊢
    simp only [quote, List.cons_append, List.append_assoc, List.nil_append] at hmembers ⊢
    simp [hmembers, toForm, memberForms]

theorem items?_printItems (indent depth : Nat) : (vs : List Json) → ∀ {fuel d : Nat} {v : Form}
    {t rest : Text},
    2 * (printItems indent depth vs).length ≤ fuel →
    value? (fuel + 1) t =
      some (v, printItems indent depth vs ++ newline indent d ++ ']' :: rest) →
    items? (fuel + 2) t = some (v :: itemForms vs, rest)
  | [], fuel, d, v, t, rest, _, hv => by
    rw [items?, hv, printItems, List.nil_append]
    simp only [bind, Option.bind, skipSpace_newline]
    rfl
  | w :: ws, fuel, d, v, t, rest, hf, hv => by
    simp only [printItems, List.length_cons, List.length_append] at hf
    obtain ⟨fuel, rfl⟩ : ∃ m, fuel = m + 1 := ⟨fuel - 1, by omega⟩
    have hlen : 2 * (print indent depth w).length ≤ fuel := by omega
    have hfirst := value?_print indent depth w hlen
      (endsNumber_printItems indent depth d ws (']' :: rest))
      ((skipSpace_newline indent depth _).trans (skipSpace_print indent depth w _))
    have hitems := items?_printItems indent depth ws (by omega) hfirst
    rw [items?, hv, printItems]
    simp only [List.cons_append, List.append_assoc] at hitems ⊢
    simp [skipSpace_cons, hitems, itemForms, isSpace]

theorem members?_printMembers (indent depth : Nat) : (ms : List (Text × Json)) →
    ∀ {fuel d : Nat} {k : Text} {v : Form} {t u rest : Text},
    2 * (printMembers indent depth ms).length ≤ fuel →
    skipSpace t = quote k ++ ':' :: u →
    value? (fuel + 1) u =
      some (v, printMembers indent depth ms ++ newline indent d ++ '\x7d' :: rest) →
    members? (fuel + 2) t = some ((k.map pieceOf, v) :: memberForms ms, rest)
  | [], fuel, d, k, v, t, u, rest, _, hk, hv => by
    exact members?_last hk hv ((skipSpace_newline indent d _).trans (skipSpace_cons rfl rest))
  | (l, w) :: ms, fuel, d, k, v, t, u, rest, hf, hk, hv => by
    simp only [printMembers, List.length_cons, List.length_append] at hf
    obtain ⟨fuel, rfl⟩ : ∃ m, fuel = m + 1 := ⟨fuel - 1, by omega⟩
    have hlen : 2 * (print indent depth w).length ≤ fuel := by omega
    have hfirst := value?_print indent depth w hlen
      (endsNumber_printMembers indent depth d ms ('\x7d' :: rest))
      ((skipSpace_space _).trans (skipSpace_print indent depth w _))
    have hmembers := members?_printMembers indent depth ms (by omega)
      ((skipSpace_newline indent depth _).trans (skipSpace_quote l _)) hfirst
    rw [printMembers] at hv
    simp only [List.cons_append, List.append_assoc, List.nil_append] at hv hmembers
    rw [memberForms]
    exact members?_more hk hv (skipSpace_cons rfl _) hmembers

end

theorem ofText?_toFile (indent : Nat) (v : Json) : ofText? (v.toFile indent) = some v.toForm := by
  have hends : EndsNumber ['\n'] := endsNumber_cons (by decide) []
  have hlen : 2 * (print indent 0 v).length ≤ 2 * (v.toFile indent).length + 1 := by
    rw [toFile, List.length_append]
    omega
  have hvalue : value? (fuelFor (v.toFile indent)) (v.toFile indent) = some (v.toForm, ['\n']) :=
    value?_print indent 0 v hlen hends (skipSpace_print indent 0 v _)
  rw [ofText?, hvalue]
  rfl

end Form

end Json

end ScriptNotebook
