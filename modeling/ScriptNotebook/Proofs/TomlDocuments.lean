import Mathlib.Data.List.Nodup
import ScriptNotebook.Proofs.TomlStrings
import ScriptNotebook.Toml.Reader

/-!
Plain TOML documents.  Where keys are bare, every pair and every header stands on lines of its own
and nothing is defined twice, a document is read entry by entry, and its table lists the tables of
the headers with their pairs.
-/
namespace ScriptNotebook.Toml

theorem skipSpace_of_head? {t : Text} (h : ∀ c ∈ t.head?, isSpace c = false) : skipSpace t = t := by
  cases t with
  | nil => rfl
  | cons c t => rw [skipSpace, List.dropWhile_cons_of_neg (by simp [h c rfl])]

/-- Characters of bare keys, and at least one. -/
structure IsBare (key : Text) : Prop where
  ne_nil : key ≠ []
  bare : ∀ c ∈ key, isBareChar c = true

theorem ne_of_isBareChar {c d : Char} (hc : isBareChar c = true) (hd : isBareChar d = false) :
    c ≠ d := by
  rintro rfl
  rw [hc] at hd
  cases hd

theorem IsBare.append_ne_cons {key : Text} (hk : IsBare key) {d : Char} (hd : isBareChar d = false)
    (rest u : Text) : key ++ rest ≠ d :: u := by
  obtain ⟨c, cs, rfl⟩ := List.exists_cons_of_ne_nil hk.ne_nil
  intro h
  exact ne_of_isBareChar (hk.bare c List.mem_cons_self) hd (List.cons.inj h).1

theorem keyPart?_bare {key rest : Text} (hk : IsBare key)
    (hr : ∀ c ∈ rest.head?, isBareChar c = false) :
    keyPart? (key ++ rest) = some (key, rest) := by
  have htake : rest.takeWhile isBareChar = [] ∧ rest.dropWhile isBareChar = rest := by
    cases rest with
    | nil => simp
    | cons c rest => simp [hr c rfl]
  have hfront : (key ++ rest).takeWhile isBareChar = key := by
    rw [List.takeWhile_append_of_pos hk.bare, htake.1, List.append_nil]
  have hback : (key ++ rest).dropWhile isBareChar = rest := by
    rw [List.dropWhile_append_of_pos hk.bare, htake.2]
  obtain ⟨c, cs, hc⟩ := List.exists_cons_of_ne_nil hk.ne_nil
  rw [keyPart?]
  · rw [hfront, hback, hc]
  · exact hk.append_ne_cons rfl rest
  · exact hk.append_ne_cons rfl rest

theorem key?_bare {key rest : Text} (hk : IsBare key)
    (hr : ∀ c ∈ rest.head?, isBareChar c = false) (hdot : (skipSpace rest).head? ≠ some '.') :
    key? (key ++ rest) = some (⟨[], key⟩, skipSpace rest) := by
  have hparts : keyParts? maxDepth (key ++ rest) = some ([key], skipSpace rest) := by
    rw [maxDepth, keyParts?, keyPart?_bare hk hr]
    simp only [Option.bind_eq_bind, Option.bind_some]
    split
    · next u hu =>
      rw [hu] at hdot
      exact absurd rfl hdot
    · rfl
  rw [key?, hparts]
  rfl

theorem skipSpace_bare {key : Text} (hk : IsBare key) (rest : Text) :
    skipSpace (key ++ rest) = key ++ rest := by
  obtain ⟨c, cs, rfl⟩ := List.exists_cons_of_ne_nil hk.ne_nil
  have hc (d : Char) := ne_of_isBareChar (d := d) (hk.bare c List.mem_cons_self)
  refine skipSpace_of_head? fun d hd => ?_
  obtain rfl := Option.some.inj hd
  simp [isSpace, hc ' ' rfl, hc '\t' rfl]

theorem keyOfPair?_bare {key value : Text} (hk : IsBare key)
    (hv : ∀ c ∈ value.head?, isSpace c = false) :
    keyOfPair? (key ++ " = ".toList ++ value) = some (⟨[], key⟩, value) := by
  have hbehind : ∀ c ∈ (' ' :: '=' :: ' ' :: value).head?, isBareChar c = false := by
    intro c hc
    obtain rfl := Option.some.inj hc
    rfl
  have hkey := key?_bare hk hbehind (by simp [skipSpace, isSpace])
  have hvalue : skipSpace (' ' :: value) = value := skipSpace_of_head? hv
  rw [keyOfPair?, List.append_assoc, skipSpace_bare hk]
  show (key? (key ++ ' ' :: '=' :: ' ' :: value)).bind _ = _
  rw [hkey]
  show some (_, skipSpace (' ' :: value)) = _
  rw [hvalue]

theorem quote_head (t : Text) : ∃ u, quote t = '"' :: u ∨ quote t = '\'' :: u := by
  rw [quote]
  cases Style.of t
  · exact ⟨_, Or.inl rfl⟩
  · exact ⟨_, Or.inr rfl⟩
  · exact ⟨_, Or.inl rfl⟩
  · exact ⟨_, Or.inr rfl⟩

theorem value?_quote (fuel room : Nat) (t : Text) {rest : Text} (hdouble : rest.head? ≠ some '"')
    (hsingle : rest.head? ≠ some '\'') :
    value? (fuel + 1) room (quote t ++ rest) = some (.string t, rest) := by
  have hread := string?_quote t hdouble hsingle
  obtain ⟨u, hu | hu⟩ := quote_head t <;>
  · rw [hu, List.cons_append] at hread ⊢
    rw [value?, hread]
    rfl

theorem statement?_header {key : Text} (hk : IsBare key) (rest : Text) :
    statement? ('[' :: key ++ ']' :: '\n' :: rest) = some (.header ⟨[], key⟩, rest) := by
  have hbehind : ∀ c ∈ (']' :: '\n' :: rest).head?, isBareChar c = false := by
    intro c hc
    obtain rfl := Option.some.inj hc
    rfl
  have hkey := key?_bare hk hbehind (by simp [skipSpace, isSpace])
  rw [List.cons_append, statement?]
  · rw [skipSpace_bare hk, hkey]
    rfl
  · exact hk.append_ne_cons rfl _

theorem statement?_pair {key value rest : Text} {v : Toml} (hk : IsBare key)
    (hs : ∀ c ∈ (value ++ '\n' :: rest).head?, isSpace c = false)
    (hv : ∀ fuel, value? (fuel + 1) maxDepth (value ++ '\n' :: rest) = some (v, '\n' :: rest)) :
    statement? (key ++ " = ".toList ++ value ++ '\n' :: rest) =
      some (.pair ⟨[], key⟩ v, rest) := by
  have hkey := keyOfPair?_bare hk hs
  rw [← List.append_assoc] at hkey
  have hopen : ∀ u, key ++ " = ".toList ++ value ++ '\n' :: rest ≠ '[' :: u := by
    simpa using hk.append_ne_cons (d := '[') rfl (" = ".toList ++ value ++ '\n' :: rest)
  rw [statement?]
  · simp only [hkey, Option.bind_eq_bind, Option.bind_some, hv]
    rfl
  · exact fun u => hopen ('[' :: u)
  · exact hopen

theorem entries?_newline (fuel : Nat) (t : Text) : entries? fuel ('\n' :: t) = entries? fuel t := by
  cases fuel <;> simp [entries?, skipGap]

theorem skipGap_of_head? {c : Char} (h : c = '[' ∨ isBareChar c = true) (t : Text) :
    skipGap false (c :: t) = c :: t := by
  have hc : c ≠ ' ' ∧ c ≠ '\t' ∧ c ≠ '\n' ∧ c ≠ '\r' ∧ c ≠ '#' := by
    rcases h with rfl | h
    · decide
    · have hne (d : Char) := ne_of_isBareChar (d := d) h
      exact ⟨hne _ rfl, hne _ rfl, hne _ rfl, hne _ rfl, hne _ rfl⟩
  rw [skipGap]
  · simp [isSpace, hc]
  all_goals simp_all

theorem entries?_cons {fuel : Nat} {c : Char} {t rest : Text} {e : Entry}
    (hc : c = '[' ∨ isBareChar c = true) (he : statement? (c :: t) = some (e, rest)) :
    entries? (fuel + 1) (c :: t) = (entries? fuel rest).map (e :: ·) := by
  rw [entries?, skipGap_of_head? hc]
  simp only [he, Option.bind_eq_bind, Option.bind_some]
  cases entries? fuel rest <;> rfl

namespace Table

theorem get?_eq_none_iff {key : Text} {fields : Table} :
    fields.get? key = none ↔ key ∉ fields.map (·.1) := by
  simp only [get?, Option.map_eq_none_iff, List.find?_eq_none, List.mem_map, beq_iff_eq]
  grind

theorem get?_map {α : Type} [DecidableEq α] {key : α → Text} (hkey : Function.Injective key)
    (value : α → Toml) (a : α) (l : List α) :
    Table.get? (key a) (l.map fun b => (key b, value b)) =
      if a ∈ l then some (value a) else none := by
  induction l with
  | nil => rfl
  | cons b l ih =>
    by_cases h : b = a
    · simp [get?, h]
    · have hne : key b ≠ key a := fun hk => h (hkey hk)
      simpa [get?, hne, Ne.symm h] using ih

theorem put_new {key : Text} (value : Toml) {fields : Table} (h : fields.get? key = none) :
    put key value fields = fields ++ [(key, value)] := by
  rw [get?_eq_none_iff] at h
  induction fields with
  | nil => rfl
  | cons m fields ih =>
    rw [List.map_cons, List.mem_cons, not_or] at h
    rw [put, if_neg h.1, ih h.2]
    rfl

theorem get?_put (key : Text) (value : Toml) (fields : Table) :
    (put key value fields).get? key = some value := by
  induction fields with
  | nil => simp [put, get?]
  | cons m fields ih =>
    rw [put]
    split
    · simp [get?]
    · next h =>
      have hm : (m.1 == key) = false := by simpa using Ne.symm h
      simpa [get?, hm] using ih

theorem put_put (key : Text) (value value' : Toml) (fields : Table) :
    put key value' (put key value fields) = put key value' fields := by
  induction fields with
  | nil => simp [put]
  | cons m fields ih =>
    by_cases h : key = m.1
    · simp [put, h]
    · simp [put, h, ih]

end Table

def pairEntry (member : Text × Toml) : Entry := .pair ⟨[], member.1⟩ member.2

theorem Document.add?_header {name : Text} {current : List Text} {root : Table}
    (h : root.get? name = none) :
    add? ⟨current, root⟩ (.header ⟨[], name⟩) =
      some ⟨[name], root.put name newTable⟩ := by
  simp [add?, edit?, h]

theorem Document.add?_pair {name : Text} {root members : Table} {member : Text × Toml}
    (h : members.get? member.1 = none) :
    add? ⟨[name], root.put name (.table .header members)⟩ (pairEntry member) =
      some ⟨[name], root.put name (.table .header (members ++ [member]))⟩ := by
  simp [add?, pairEntry, edit?, insert?, Table.get?_put, Route.passes, h, Table.put_put,
    Table.put_new]

theorem foldlM_pairs (name : Text) (root members : Table) {pairs : Table}
    (h : ((members ++ pairs).map (·.1)).Nodup) :
    (pairs.map pairEntry).foldlM Document.add? ⟨[name], root.put name (.table .header members)⟩ =
      some ⟨[name], root.put name (.table .header (members ++ pairs))⟩ := by
  induction pairs generalizing members with
  | nil => simp
  | cons m pairs ih =>
    have hm : members.get? m.1 = none := by
      rw [Table.get?_eq_none_iff]
      rw [List.map_append, List.nodup_append] at h
      exact fun hk => h.2.2 m.1 hk m.1 List.mem_cons_self rfl
    have hsplit : members ++ m :: pairs = members ++ [m] ++ pairs := by simp
    rw [hsplit] at h ⊢
    rw [List.map_cons, List.foldlM_cons, Document.add?_pair hm]
    exact ih _ h

def tableEntries (table : Text × Table) : List Entry :=
  .header ⟨[], table.1⟩ :: table.2.map pairEntry

theorem foldlM_tableEntries {table : Text × Table} (current : List Text) {root : Table}
    (hnew : root.get? table.1 = none) (h : (table.2.map (·.1)).Nodup) :
    (tableEntries table).foldlM Document.add? ⟨current, root⟩ =
      some ⟨[table.1], root ++ [(table.1, .table .header table.2)]⟩ := by
  have hpairs := foldlM_pairs table.1 root [] h
  rw [tableEntries, List.foldlM_cons, Document.add?_header hnew]
  exact hpairs.trans (by rw [Table.put_new _ hnew, List.nil_append])

theorem foldlM_tables {tables : List (Text × Table)} (current : List Text) (root : Table)
    (hn : (root.map (·.1) ++ tables.map (·.1)).Nodup)
    (hm : ∀ table ∈ tables, (table.2.map (·.1)).Nodup) :
    ((tables.flatMap tableEntries).foldlM Document.add? ⟨current, root⟩).map Document.root =
      some (root ++ tables.map fun table => (table.1, .table .header table.2)) := by
  induction tables generalizing current root with
  | nil => simp
  | cons table tables ih =>
    rw [List.forall_mem_cons] at hm
    have hnew : root.get? table.1 = none := by
      rw [Table.get?_eq_none_iff]
      exact fun hk => (List.nodup_append.mp hn).2.2 table.1 hk table.1 List.mem_cons_self rfl
    have hrest := ih [table.1] (root ++ [(table.1, .table .header table.2)])
      (by simpa using hn) hm.2
    rw [List.flatMap_cons, List.foldlM_append, foldlM_tableEntries current hnew hm.1]
    simpa using hrest

/-- Tables with headers of their own, whose keys are all different, make a table of tables. -/
theorem ofEntries?_tables {tables : List (Text × Table)} (hn : (tables.map (·.1)).Nodup)
    (hm : ∀ table ∈ tables, (table.2.map (·.1)).Nodup) :
    ofEntries? (tables.flatMap tableEntries) =
      some (tables.map fun table => (table.1, .table .header table.2)) :=
  foldlM_tables [] [] hn hm

end ScriptNotebook.Toml
