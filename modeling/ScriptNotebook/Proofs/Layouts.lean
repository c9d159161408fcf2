import ScriptNotebook.Proofs.OrderedDocument
import ScriptNotebook.Proofs.TextPieces

/-!
The two layouts of a notebook.  What the plain writer writes is what the structured one writes with
the spaces doubled that the lines begin with.  No line begins inside a string, a number or a word,
so that all a printed value says about its lines is how they are indented.
-/
namespace ScriptNotebook

namespace Text

/-- The line with the run of spaces doubled that it begins with. -/
def doubleLine (line : Text) : Text :=
  List.replicate (2 * (line.takeWhile (· == ' ')).length) ' ' ++ line.dropWhile (· == ' ')

def doubleIndent (t : Text) : Text := join ['\n'] ((cut '\n' t).map doubleLine)

def doubleLater (t : Text) : Text :=
  match cut '\n' t with
  | [] => []
  | first :: rest => join ['\n'] (first :: rest.map doubleLine)

theorem doubleLine_spaces (n : Nat) {line : Text} (h : line.head? ≠ some ' ') :
    doubleLine (List.replicate n ' ' ++ line) = List.replicate (2 * n) ' ' ++ line := by
  have hspaces : ∀ c ∈ List.replicate n ' ', (c == ' ') = true := by
    intro c hc
    rw [List.eq_of_mem_replicate hc]
    rfl
  have hline : line.takeWhile (· == ' ') = [] ∧ line.dropWhile (· == ' ') = line := by
    cases line with
    | nil => simp
    | cons c line => simp_all
  rw [doubleLine, List.takeWhile_append_of_pos hspaces, List.dropWhile_append_of_pos hspaces,
    hline.1, hline.2, List.append_nil, List.length_replicate]

theorem doubleLater_append {s : Text} (hs : '\n' ∉ s) (t : Text) :
    doubleLater (s ++ t) = s ++ doubleLater t := by
  obtain ⟨piece, rest, ht⟩ := exists_cut_eq_cons '\n' t
  rw [doubleLater, doubleLater, cut_append_of_not_mem hs ht, ht]
  exact join_append_cons ['\n'] s piece _

theorem doubleLater_cons {c : Char} (hc : '\n' ≠ c) (t : Text) :
    doubleLater (c :: t) = c :: doubleLater t :=
  doubleLater_append (s := [c]) (by simp [hc]) t

theorem doubleIndent_spaces (n : Nat) {t : Text} (h : t.head? ≠ some ' ') :
    doubleIndent (List.replicate n ' ' ++ t) = List.replicate (2 * n) ' ' ++ doubleLater t := by
  obtain ⟨piece, rest, ht⟩ := exists_cut_eq_cons '\n' t
  have hpiece : piece.head? ≠ some ' ' := by
    rcases head?_of_cut ht with hp | hp <;> simp_all
  have hspaces : '\n' ∉ List.replicate n ' ' := by simp
  rw [doubleIndent, doubleLater, cut_append_of_not_mem hspaces ht, ht, List.map_cons,
    doubleLine_spaces n hpiece, join_append_cons]

theorem doubleIndent_of_head {t : Text} (h : t.head? ≠ some ' ') : doubleIndent t = doubleLater t :=
  doubleIndent_spaces 0 h

theorem doubleLater_newline (t : Text) : doubleLater ('\n' :: t) = '\n' :: doubleIndent t := by
  obtain ⟨piece, rest, ht⟩ := exists_cut_eq_cons '\n' t
  rw [doubleLater, doubleIndent, cut_mark, ht]
  rfl

end Text

namespace Json

theorem newline_not_mem_escapeChar (c : Char) : '\n' ∉ escapeChar c := by
  by_cases hm : c ∈ ['"', '\\', '\x08', '\x0c', '\n', '\r', '\t']
  · simp only [List.mem_cons, List.not_mem_nil, or_false] at hm
    rcases hm with rfl | rfl | rfl | rfl | rfl | rfl | rfl <;> decide
  · simp only [List.mem_cons, List.not_mem_nil, or_false, not_or] at hm
    obtain ⟨hquote, hslash, hb, hf, hn, hr, ht⟩ := hm
    have hescape : escapeChar c =
        if c.toNat < 0x20 then ['\\', 'u'] ++ Text.hex 4 c.toNat else [c] := by
      rw [escapeChar] <;> assumption
    rw [hescape]
    split
    · next hc =>
      have hdigits : ∀ n < 0x20, '\n' ∉ ['\\', 'u'] ++ Text.hex 4 n := by decide
      exact hdigits c.toNat hc
    · simpa using Ne.symm hn

theorem newline_not_mem_quote (t : Text) : '\n' ∉ quote t := by
  have hchars : '\n' ∉ t.flatMap escapeChar := by
    simp [List.mem_flatMap, newline_not_mem_escapeChar]
  simp [quote, hchars]

theorem Numeral.AreDigits.newline_not_mem {ds : Text} (h : AreDigits ds) : '\n' ∉ ds :=
  fun hm => absurd (h.digit '\n' hm) (by decide)

theorem Numeral.newline_not_mem_text {n : Numeral} (hn : n.IsProper) : '\n' ∉ n.text := by
  obtain ⟨negative, whole, fraction, exponent⟩ := n
  have hsign : '\n' ∉ signText negative := by cases negative <;> decide
  have hwhole : '\n' ∉ whole := hn.whole.newline_not_mem
  have hfraction : '\n' ∉ fractionText fraction := by
    cases fraction with
    | none => simp [fractionText]
    | some ds => simp [fractionText, (hn.fraction ds rfl).newline_not_mem]
  have hexponent : '\n' ∉ exponentText exponent := by
    cases exponent with
    | none => simp [exponentText]
    | some e =>
      obtain ⟨negative, ds⟩ := e
      have hds : '\n' ∉ ds := (hn.exponent _ rfl).newline_not_mem
      cases negative <;> simp [exponentText, hds]
  simp [text, hsign, hwhole, hfraction, hexponent]

theorem doubleLater_line (indent depth : Nat) {t : Text} (h : t.head? ≠ some ' ') :
    Text.doubleLater (newline indent depth ++ t) =
      newline (2 * indent) depth ++ Text.doubleLater t := by
  rw [newline, List.cons_append, Text.doubleLater_newline, Text.doubleIndent_spaces _ h, newline,
    Nat.mul_assoc, List.cons_append]

theorem head?_print (indent depth : Nat) (v : Json) (t : Text) :
    (print indent depth v ++ t).head? ≠ some ' ' := by
  obtain ⟨c, s, hc, hs, -⟩ := Form.print_head indent depth v
  rw [hc]
  rintro h
  obtain rfl := Option.some.inj h
  cases hs

theorem head?_quote (k t : Text) : (quote k ++ t).head? ≠ some ' ' := by
  simp [quote]

mutual

/-- A value in twice the indentation is the value with its later lines doubled. -/
theorem doubleLater_print (indent depth : Nat) : (v : Json) → (t : Text) →
    Text.doubleLater (print indent depth v ++ t) =
      print (2 * indent) depth v ++ Text.doubleLater t
  | .null, t => Text.doubleLater_append (s := "null".toList) (by decide) t
  | .bool true, t => Text.doubleLater_append (s := "true".toList) (by decide) t
  | .bool false, t => Text.doubleLater_append (s := "false".toList) (by decide) t
  | .integer n, t => by
    have hline : '\n' ∉ Text.decimalInt n := by
      rw [← Numeral.text_ofInt]
      exact Numeral.newline_not_mem_text (Numeral.isProper_ofInt n)
    exact Text.doubleLater_append hline t
  | .double x, t => by
    have hline : '\n' ∉ x.text := by
      rw [← Numeral.text_ofDouble]
      exact Numeral.newline_not_mem_text (Numeral.isProper_ofDouble x)
    exact Text.doubleLater_append hline t
  | .string s, t => Text.doubleLater_append (newline_not_mem_quote s) t
  | .array [], t => Text.doubleLater_append (s := ['[', ']']) (by decide) t
  | .object [], t => Text.doubleLater_append (s := ['\x7b', '\x7d']) (by decide) t
  | .array (v :: vs), t => by
    have hitem := head?_print indent (depth + 1) v
      (printItems indent (depth + 1) vs ++ (newline indent depth ++ ']' :: t))
    have hclose : (']' :: t).head? ≠ some ' ' := by simp
    simp only [print, List.cons_append, List.append_assoc, List.nil_append]
    rw [Text.doubleLater_cons (by decide), doubleLater_line indent (depth + 1) hitem,
      doubleLater_print indent (depth + 1) v, doubleLater_printItems indent (depth + 1) vs,
      doubleLater_line indent depth hclose, Text.doubleLater_cons (by decide)]
  | .object ((k, v) :: ms), t => by
    have hmember := head?_quote k (':' :: ' ' :: (print indent (depth + 1) v ++
      (printMembers indent (depth + 1) ms ++ (newline indent depth ++ '\x7d' :: t))))
    have hclose : ('\x7d' :: t).head? ≠ some ' ' := by simp
    simp only [print, List.cons_append, List.append_assoc, List.nil_append]
    rw [Text.doubleLater_cons (by decide), doubleLater_line indent (depth + 1) hmember,
      Text.doubleLater_append (newline_not_mem_quote k), Text.doubleLater_cons (by decide),
      Text.doubleLater_cons (by decide), doubleLater_print indent (depth + 1) v,
      doubleLater_printMembers indent (depth + 1) ms, doubleLater_line indent depth hclose,
      Text.doubleLater_cons (by decide)]

theorem doubleLater_printItems (indent depth : Nat) : (vs : List Json) → (t : Text) →
    Text.doubleLater (printItems indent depth vs ++ t) =
      printItems (2 * indent) depth vs ++ Text.doubleLater t
  | [], t => rfl
  | v :: vs, t => by
    have hitem := head?_print indent depth v (printItems indent depth vs ++ t)
    simp only [printItems, List.cons_append, List.append_assoc]
    rw [Text.doubleLater_cons (by decide), doubleLater_line indent depth hitem,
      doubleLater_print indent depth v, doubleLater_printItems indent depth vs]

theorem doubleLater_printMembers (indent depth : Nat) : (ms : List (Text × Json)) → (t : Text) →
    Text.doubleLater (printMembers indent depth ms ++ t) =
      printMembers (2 * indent) depth ms ++ Text.doubleLater t
  | [], t => rfl
  | (k, v) :: ms, t => by
    have hmember := head?_quote k (':' :: ' ' :: (print indent depth v ++
      (printMembers indent depth ms ++ t)))
    simp only [printMembers, List.cons_append, List.append_assoc, List.nil_append]
    rw [Text.doubleLater_cons (by decide), doubleLater_line indent depth hmember,
      Text.doubleLater_append (newline_not_mem_quote k), Text.doubleLater_cons (by decide),
      Text.doubleLater_cons (by decide), doubleLater_print indent depth v,
      doubleLater_printMembers indent depth ms]

end

theorem doubleIndent_toFile (indent : Nat) (v : Json) :
    Text.doubleIndent (v.toFile indent) = v.toFile (2 * indent) := by
  rw [toFile, Text.doubleIndent_of_head (head?_print indent 0 v ['\n']), doubleLater_print]
  rfl

end Json

namespace Notebook

/-- For a valid notebook, the plain writer writes what the structured writer writes with the
indentation of every line doubled, and what they write is the same JSON: the document of the
notebook. -/
theorem plain_doubles_structured {notebook : Notebook} (h : notebook.validate = .ok ()) :
    ∃ text, Writer.structured.render notebook = .ok text ∧
      Writer.plain.render notebook = .ok (Text.doubleIndent text) ∧
      Json.Form.ofText? text = some notebook.toJson.ordered.toForm ∧
      Json.Form.ofText? (Text.doubleIndent text) = some notebook.toJson.ordered.toForm := by
  have hlayouts := Json.doubleIndent_toFile 1 notebook.toJson.ordered
  refine ⟨_, Writer.render_structured h, ?_, Json.Form.ofText?_toFile 1 _, ?_⟩
  · rw [Writer.render_plain, hlayouts]
  · rw [hlayouts]
    exact Json.Form.ofText?_toFile 2 _

/-- A notebook whose outputs have members out of order, a number with a fraction, an empty array and
a text in two lines that begin with spaces. -/
def measuredNotebook : Notebook where
  cells := [⟨"m1".toList, ⟨"python".toList, "m1".toList⟩,
    .code (some 7) [.object [("t".toList, .string "  a\n  b".toList),
      ("e".toList, .array [.double ⟨true, 6755399441055744, -52⟩, .array []])]], ["x\n".toList]⟩]
  metadata := ⟨⟨"python3".toList, "python".toList, "Python 3".toList⟩, "python".toList⟩
  version := .current

theorem plain_doubles_structured_measured :
    measuredNotebook.validate = .ok () ∧
      ∃ text, Writer.structured.render measuredNotebook = .ok text ∧
        Writer.plain.render measuredNotebook = .ok (Text.doubleIndent text) := by
  have hvalid : measuredNotebook.validate = .ok () := by decide
  obtain ⟨text, hstructured, hplain, -⟩ := plain_doubles_structured hvalid
  exact ⟨hvalid, text, hstructured, hplain⟩

end Notebook

end ScriptNotebook
