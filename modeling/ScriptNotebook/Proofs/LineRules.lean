import ScriptNotebook.Marker

/-!
The rules for lines.  Their beginnings differ too early for two rules to match one line, so that the
order of the rules does not matter, and naming the rule of a line is naming the form of its marker.
What a rule reads in a line begins behind the white space in front, so that indentation does not
count.
-/
namespace ScriptNotebook

/-- A search for the first result is a search for the first member that has one. -/
theorem findSome?_eq_find?_bind {α β : Type} (f : α → Option β) (l : List α) :
    l.findSome? f = (l.find? fun a => (f a).isSome).bind f := by
  induction l with
  | nil => rfl
  | cons a l ih => cases h : f a <;> simp [h, ih]

namespace Text

theorem isPrefix_of_startsWith {start t : Text} (h : startsWith start t = true) : start <+: t := by
  obtain ⟨rest, hrest⟩ := Option.isSome_iff_exists.mp h
  exact ⟨rest, (eq_append_of_strip? hrest).symm⟩

theorem after?_append_self (mark rest : Text) : after? mark (mark ++ rest) = some rest := by
  cases mark with
  | nil => cases rest <;> simp [after?, strip?]
  | cons c mark =>
    have hstrip : strip? (c :: mark) (c :: (mark ++ rest)) = some rest :=
      strip?_append (c :: mark) rest
    rw [List.cons_append, after?, hstrip, Option.some_or]

/-- A mark that begins with a visible character is not looked for in white space. -/
theorem after?_append_of_isBlank {w : Text} (hw : w.isBlank = true) {c : Char}
    (hc : isBlankChar c = false) (mark t : Text) :
    after? (c :: mark) (w ++ t) = after? (c :: mark) t := by
  induction w with
  | nil => rfl
  | cons b w ih =>
    rw [isBlank, List.all_cons, Bool.and_eq_true] at hw
    have hne : c ≠ b := by
      rintro rfl
      exact absurd hw.1 (by simp [hc])
    have hstrip : strip? (c :: mark) (b :: (w ++ t)) = none := by simp [strip?, hne]
    rw [List.cons_append, after?, hstrip, Option.none_or, ih hw.2]

theorem exists_indent (t : Text) : ∃ w : Text, w.isBlank = true ∧ t = w ++ t.trimStart :=
  ⟨t.takeWhile isBlankChar, List.all_takeWhile, List.takeWhile_append_dropWhile.symm⟩

end Text

theorem titleText?_append_of_isBlank {w : Text} (hw : w.isBlank = true) (line : Text) :
    titleText? (w ++ line) = titleText? line := by
  rw [titleText?, titleText?, Text.after?_append_of_isBlank hw (by decide)]

namespace LineRule

variable {rule other : LineRule} {rules : List LineRule} {line w : Text}

theorem mem_table (rule : LineRule) : rule ∈ table := by
  cases rule <;> decide

theorem name_injective : Function.Injective name := by
  intro rule other h
  cases rule <;> cases other <;> first | rfl | exact absurd h (by decide)

/-- No rule has a beginning that goes on to one of another rule. -/
theorem eq_of_starts_isPrefix :
    ∀ rule ∈ table, ∀ other ∈ table, ∀ s ∈ rule.starts, ∀ u ∈ other.starts, s <+: u →
      rule = other := by
  decide

theorem exists_start_of_claims (h : rule.claims line = true) :
    ∃ start ∈ rule.starts, start <+: line.trimStart := by
  obtain ⟨start, hs, hline⟩ := List.any_eq_true.mp h
  exact ⟨start, hs, Text.isPrefix_of_startsWith hline⟩

theorem eq_of_claims (h : rule.claims line = true) (h' : other.claims line = true) :
    rule = other := by
  obtain ⟨s, hs, hline⟩ := exists_start_of_claims h
  obtain ⟨u, hu, hline'⟩ := exists_start_of_claims h'
  -- Of two beginnings of one text the longer one goes on from the shorter one.
  rcases List.prefix_or_prefix_of_prefix hline hline' with hsu | hus
  · exact eq_of_starts_isPrefix rule rule.mem_table other other.mem_table s hs u hu hsu
  · exact (eq_of_starts_isPrefix other other.mem_table rule rule.mem_table u hu s hs hus).symm

/-- A wrapped line has its mark behind the indentation, so that it is found in the whole line. -/
theorem after?_of_claims_wrapped (h : wrapped.claims line = true) :
    ∃ payload, Text.after? "# MAGIC".toList line = some payload := by
  obtain ⟨start, hs, rest, hrest⟩ := exists_start_of_claims h
  obtain rfl : start = "# MAGIC".toList := List.mem_singleton.mp hs
  obtain ⟨w, hw, hline⟩ := Text.exists_indent line
  refine ⟨rest, ?_⟩
  calc Text.after? "# MAGIC".toList line
    _ = Text.after? "# MAGIC".toList (w ++ ("# MAGIC".toList ++ rest)) := by rw [hline, hrest]
    _ = Text.after? "# MAGIC".toList ("# MAGIC".toList ++ rest) :=
      Text.after?_append_of_isBlank hw (by decide) _ _
    _ = some rest := Text.after?_append_self _ _

theorem isSome_reading?_of_claims (h : rule.claims line = true) :
    (rule.reading? line).isSome = true := by
  cases rule with
  | wrapped =>
    obtain ⟨payload, hpayload⟩ := after?_of_claims_wrapped h
    rw [reading?, hpayload]
    rfl
  | banner | command | title | split => rfl

theorem isSome_match? : (rule.match? line).isSome = rule.claims line := by
  by_cases h : rule.claims line = true
  · rw [match?, if_pos h, isSome_reading?_of_claims h, h]
  · rw [match?, if_neg h, Option.isSome_none, Bool.eq_false_iff.mpr h]

theorem rule?_of_match? {marker : Marker} (h : rule.match? line = some marker) :
    marker.rule? = some rule := by
  rw [match?] at h
  split at h
  · exact rule?_of_reading? h
  · exact nomatch h

theorem exists_match?_of_claiming? (h : claiming? rules line = some rule) :
    ∃ marker, rule.match? line = some marker := by
  rw [claiming?] at h
  exact Option.isSome_iff_exists.mp (by simpa using List.find?_some h)

theorem claims_of_match? {marker : Marker} (h : rule.match? line = some marker) :
    rule.claims line = true := by
  rw [← isSome_match?, h, Option.isSome_some]

theorem claims_of_claiming? (h : claiming? rules line = some rule) : rule.claims line = true := by
  obtain ⟨marker, hm⟩ := exists_match?_of_claiming? h
  exact claims_of_match? hm

theorem claiming?_eq_some_iff (hall : ∀ rule, rule ∈ rules) :
    claiming? rules line = some rule ↔ rule.claims line = true := by
  refine ⟨claims_of_claiming?, fun h => ?_⟩
  cases hf : claiming? rules line with
  | none =>
    have hno := List.find?_eq_none.mp hf rule (hall rule)
    rw [isSome_match?] at hno
    exact absurd h hno
  | some found => rw [eq_of_claims (claims_of_claiming? hf) h]

theorem claiming?_eq_of_perm (h : rules.Perm table) :
    claiming? rules line = claiming? table line := by
  have hall : ∀ rule, rule ∈ rules := fun rule => h.mem_iff.mpr rule.mem_table
  ext rule
  rw [claiming?_eq_some_iff hall, claiming?_eq_some_iff mem_table]

theorem matching?_eq_none_iff : matching? line = none ↔ claiming? table line = none :=
  Option.map_eq_none_iff

theorem claims_append_of_isBlank (hw : w.isBlank = true) (rule : LineRule) (line : Text) :
    rule.claims (w ++ line) = rule.claims line := by
  rw [claims, claims, Text.trimStart_append hw]

theorem reading?_append_of_isBlank (hw : w.isBlank = true) (rule : LineRule) (line : Text) :
    rule.reading? (w ++ line) = rule.reading? line := by
  cases rule with
  | banner => rfl
  | command => rfl
  | title => rw [reading?, reading?, titleText?_append_of_isBlank hw]
  | wrapped =>
    have hafter : Text.after? "# MAGIC".toList (w ++ line) = Text.after? "# MAGIC".toList line :=
      Text.after?_append_of_isBlank hw (by decide) _ line
    rw [reading?, reading?, hafter]
  | split => rw [reading?, reading?, Text.trimStart_append hw]

theorem match?_append_of_isBlank (hw : w.isBlank = true) (rule : LineRule) (line : Text) :
    rule.match? (w ++ line) = rule.match? line := by
  rw [match?, match?, claims_append_of_isBlank hw, reading?_append_of_isBlank hw]

theorem claiming?_append_of_isBlank (hw : w.isBlank = true) (rules : List LineRule) (line : Text) :
    claiming? rules (w ++ line) = claiming? rules line := by
  simp only [claiming?, match?_append_of_isBlank hw]

end LineRule

namespace Marker

open LineRule (claiming? table)

/-- The name of a marker's form; content has none. -/
def formName? : Marker → Option Text
  | banner => some "banner".toList
  | command => some "command".toList
  | title _ => some "title".toList
  | wrapped _ => some "magic".toList
  | split _ => some "split".toList
  | content _ => none

theorem formName?_eq_map_rule? (marker : Marker) :
    marker.formName? = marker.rule?.map LineRule.name := by
  cases marker <;> rfl

theorem ofLineBy_eq_match? (rules : List LineRule) (line : Text) :
    ofLineBy rules line =
      ((claiming? rules line).bind fun rule => rule.match? line).getD (content line) := by
  rw [ofLineBy, findSome?_eq_find?_bind, claiming?]

theorem ofLine_of_match? {rule : LineRule} {line : Text} {marker : Marker}
    (h : rule.match? line = some marker) : ofLine line = marker := by
  have hrule : claiming? table line = some rule :=
    (LineRule.claiming?_eq_some_iff LineRule.mem_table).mpr (LineRule.claims_of_match? h)
  rw [ofLine, ofLineBy_eq_match?, hrule, Option.bind_some, h, Option.getD_some]

theorem rule?_ofLine (line : Text) : (ofLine line).rule? = claiming? table line := by
  cases hr : claiming? table line with
  | none =>
    rw [ofLine, ofLineBy_eq_match?, hr]
    rfl
  | some rule =>
    obtain ⟨marker, hm⟩ := LineRule.exists_match?_of_claiming? hr
    rw [ofLine_of_match? hm, LineRule.rule?_of_match? hm]

theorem formName?_ofLine (line : Text) : (ofLine line).formName? = LineRule.matching? line := by
  rw [formName?_eq_map_rule?, rule?_ofLine, LineRule.matching?]

theorem ofLine_eq_content_iff {line : Text} :
    ofLine line = content line ↔ claiming? table line = none := by
  constructor
  · intro h
    rw [← rule?_ofLine, h]
    rfl
  · intro h
    rw [ofLine, ofLineBy_eq_match?, h]
    rfl

theorem eq_of_ofLine_content {line text : Text} (h : ofLine line = content text) :
    text = line := by
  have hnone : claiming? table line = none := by
    rw [← rule?_ofLine, h]
    rfl
  exact content.inj (h.symm.trans (ofLine_eq_content_iff.mpr hnone))

theorem ofLineBy_eq_of_perm {rules : List LineRule} (h : rules.Perm table) (line : Text) :
    ofLineBy rules line = ofLine line := by
  rw [ofLine, ofLineBy_eq_match?, ofLineBy_eq_match?, LineRule.claiming?_eq_of_perm h]

theorem ofLine_append_of_isBlank {line w : Text} (hw : w.isBlank = true)
    (h : claiming? table line ≠ none) : ofLine (w ++ line) = ofLine line := by
  obtain ⟨rule, hrule⟩ := Option.ne_none_iff_exists'.mp h
  obtain ⟨marker, hm⟩ := LineRule.exists_match?_of_claiming? hrule
  have hm' : rule.match? (w ++ line) = some marker :=
    (LineRule.match?_append_of_isBlank hw rule line).trans hm
  rw [ofLine_of_match? hm, ofLine_of_match? hm']

/-- At most one rule matches a line, so that every order of the rules yields one marker.  The name
found for the line is that of its marker's form, which no other rule has, and there is none exactly
for content.  White space in front of the line changes neither what a rule matches nor the name
nor, where there is one, the marker. -/
theorem ofLine_by_one_rule (line : Text) {rules : List LineRule} (hr : rules.Perm table) {w : Text}
    (hw : w.isBlank = true) :
    (∀ rule other : LineRule, (rule.match? line).isSome → (other.match? line).isSome →
        rule = other) ∧
      ofLineBy rules line = ofLine line ∧
      Function.Injective LineRule.name ∧
      claiming? table line = (ofLine line).rule? ∧
      LineRule.matching? line = (ofLine line).formName? ∧
      (LineRule.matching? line = none ↔ ofLine line = content line) ∧
      (∀ rule : LineRule, rule.match? (w ++ line) = rule.match? line) ∧
      LineRule.matching? (w ++ line) = LineRule.matching? line ∧
      (LineRule.matching? line ≠ none → ofLine (w ++ line) = ofLine line) := by
  refine ⟨fun rule other h h' => ?_, ofLineBy_eq_of_perm hr line, LineRule.name_injective,
    (rule?_ofLine line).symm, (formName?_ofLine line).symm, ?_,
    fun rule => LineRule.match?_append_of_isBlank hw rule line, ?_, fun h => ?_⟩
  · rw [LineRule.isSome_match?] at h h'
    exact LineRule.eq_of_claims h h'
  · rw [LineRule.matching?_eq_none_iff, ofLine_eq_content_iff]
  · rw [LineRule.matching?, LineRule.matching?, LineRule.claiming?_append_of_isBlank hw]
  · exact ofLine_append_of_isBlank hw fun hnone => h (LineRule.matching?_eq_none_iff.mpr hnone)

/-- A line that has the marks of three rules in it. -/
def mixedLine : Text := "# MAGIC # %% # DBTITLE 1,x".toList

theorem ofLine_by_one_rule_mixedLine :
    ofLine mixedLine = .wrapped (.markdown "# %% # DBTITLE 1,x".toList) ∧
      ofLineBy table.reverse mixedLine = ofLine mixedLine ∧
      LineRule.matching? mixedLine = some "magic".toList ∧
      LineRule.matching? ("\t\u3000".toList ++ mixedLine) = some "magic".toList ∧
      ofLine ("\t\u3000".toList ++ mixedLine) = ofLine mixedLine := by
  have hw : Text.isBlank "\t\u3000".toList = true := by decide
  have hmarker : ofLine mixedLine = .wrapped (.markdown "# %% # DBTITLE 1,x".toList) := by decide
  obtain ⟨-, horder, -, -, hform, -, -, hname, hindent⟩ :=
    ofLine_by_one_rule mixedLine (List.reverse_perm table) hw
  have hmagic : LineRule.matching? mixedLine = some "magic".toList := by
    rw [hform, hmarker]
    rfl
  have hfound : LineRule.matching? mixedLine ≠ none := by
    rw [hmagic]
    exact Option.some_ne_none _
  exact ⟨hmarker, horder, hmagic, hname.trans hmagic, hindent hfound⟩

end Marker

end ScriptNotebook
