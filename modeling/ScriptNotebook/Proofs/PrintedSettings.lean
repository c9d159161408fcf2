import ScriptNotebook.Program
import ScriptNotebook.Proofs.TomlDocuments

/-!
Settings that their file gives back.  A printed file is taken apart into headers, entries and the
gap between its tables; whichever of them are left in it, the file loads as the settings with the
initial ones in place of what is missing.
-/
namespace ScriptNotebook

namespace Settings

inductive Section
  | defaults | kernel
  deriving DecidableEq, Repr

inductive Field
  | extension | outputDirName | recursive | writer | kernelName | displayName | kernelLanguage
  deriving DecidableEq, Repr

namespace Section

def key : Section → String
  | defaults => "defaults"
  | kernel => "kernel"

def fields : Section → List Field
  | defaults => [.extension, .outputDirName, .recursive, .writer]
  | kernel => [.kernelName, .displayName, .kernelLanguage]

end Section

namespace Field

def table : Field → Section
  | extension | outputDirName | recursive | writer => .defaults
  | kernelName | displayName | kernelLanguage => .kernel

def key : Field → String
  | extension => "extension"
  | outputDirName => "output_dir_name"
  | recursive => "recursive"
  | writer => "writer"
  | kernelName => "name"
  | displayName => "display_name"
  | kernelLanguage => "language"

/-- What the field says in a file that holds the settings. -/
def value (s : Settings) : Field → Toml
  | extension => .string s.extension
  | outputDirName => .string s.outputDirName
  | recursive => .bool s.recursive
  | writer => .string s.writer.name
  | kernelName => .string s.kernel.name
  | displayName => .string s.kernel.displayName
  | kernelLanguage => .string s.kernel.language

def valueText (s : Settings) : Field → Text
  | extension => Toml.quote s.extension
  | outputDirName => Toml.quote s.outputDirName
  | recursive => boolText s.recursive
  | writer => Toml.quote s.writer.name
  | kernelName => Toml.quote s.kernel.name
  | displayName => Toml.quote s.kernel.displayName
  | kernelLanguage => Toml.quote s.kernel.language

end Field

/-- The header of a table, the entry of a field, or an empty line. -/
inductive Part
  | header (table : Section)
  | entry (field : Field)
  | gap
  deriving DecidableEq, Repr

namespace Part

def text (s : Settings) : Part → Text
  | header table => '[' :: table.key.toList ++ "]\n".toList
  | entry field => pairLine field.key (field.valueText s)
  | gap => ['\n']

def asEntry (s : Settings) : Part → Option Toml.Entry
  | header table => some (.header ⟨[], table.key.toList⟩)
  | entry field => some (Toml.pairEntry (field.key.toList, field.value s))
  | gap => none

end Part

def Section.parts (table : Section) : List Part := .header table :: table.fields.map .entry

def parts : List Part := Section.defaults.parts ++ .gap :: Section.kernel.parts

theorem toText_eq_parts (s : Settings) : s.toText = parts.flatMap (Part.text s) := by
  have hdefaults : "[defaults]\n".toList = Part.text s (.header .defaults) := rfl
  have hkernel : "\n[kernel]\n".toList = Part.text s .gap ++ Part.text s (.header .kernel) := rfl
  unfold toText
  rw [hdefaults, hkernel]
  simp only [parts, Section.parts, Section.fields, List.map_cons, List.map_nil, List.cons_append,
    List.nil_append, List.flatMap_cons, List.flatMap_nil, List.append_nil, List.append_assoc]
  rfl

theorem Section.isBare_key (table : Section) : Toml.IsBare table.key.toList := by
  cases table <;> exact ⟨by decide, List.all_eq_true.mp (by decide)⟩

theorem Field.isBare_key (field : Field) : Toml.IsBare field.key.toList := by
  cases field <;> exact ⟨by decide, List.all_eq_true.mp (by decide)⟩

theorem value?_boolText (fuel room : Nat) (b : Bool) (rest : Text) :
    Toml.value? (fuel + 1) room (boolText b ++ rest) = some (.bool b, rest) := by
  cases b <;> rfl

theorem Field.value?_valueText (s : Settings) (field : Field) (fuel : Nat) (rest : Text) :
    Toml.value? (fuel + 1) Toml.maxDepth (field.valueText s ++ '\n' :: rest) =
      some (field.value s, '\n' :: rest) := by
  have hquote (t : Text) : Toml.value? (fuel + 1) Toml.maxDepth (Toml.quote t ++ '\n' :: rest) =
      some (.string t, '\n' :: rest) :=
    Toml.value?_quote fuel Toml.maxDepth t (by simp) (by simp)
  cases field with
  | recursive => exact value?_boolText fuel Toml.maxDepth s.recursive ('\n' :: rest)
  | _ => exact hquote _

theorem Field.head?_valueText (s : Settings) (field : Field) (rest : Text) :
    ∀ c ∈ (field.valueText s ++ rest).head?, Toml.isSpace c = false := by
  have hquote (t : Text) : ∀ c ∈ (Toml.quote t ++ rest).head?, Toml.isSpace c = false := by
    intro c hc
    obtain ⟨u, hu | hu⟩ := Toml.quote_head t <;>
    · rw [hu] at hc
      obtain rfl := Option.some.inj hc
      rfl
  cases field with
  | recursive =>
    intro c hc
    cases hb : s.recursive <;>
    · rw [valueText, hb] at hc
      obtain rfl := Option.some.inj hc
      rfl
  | _ => exact hquote _

/-- The first character of a part that is an entry of the document. -/
theorem Part.exists_text_eq {s : Settings} {part : Part} {e : Toml.Entry}
    (h : part.asEntry s = some e) :
    ∃ c t, part.text s = c :: t ∧ (c = '[' ∨ Toml.isBareChar c = true) := by
  cases part with
  | header table => exact ⟨'[', _, rfl, Or.inl rfl⟩
  | entry field =>
    have hbare := field.isBare_key
    obtain ⟨c, t, hc⟩ := List.exists_cons_of_ne_nil hbare.ne_nil
    have hmem : c ∈ field.key.toList := by
      rw [hc]
      exact List.mem_cons_self
    refine ⟨c, t ++ " = ".toList ++ field.valueText s ++ ['\n'], ?_, Or.inr (hbare.bare c hmem)⟩
    rw [text, pairLine, hc]
    rfl
  | gap => cases h

theorem Part.statement?_text {s : Settings} {part : Part} {e : Toml.Entry}
    (h : part.asEntry s = some e) (rest : Text) :
    Toml.statement? (part.text s ++ rest) = some (e, rest) := by
  cases part with
  | header table =>
    obtain rfl := Option.some.inj h
    simpa [text] using Toml.statement?_header table.isBare_key rest
  | entry field =>
    obtain rfl := Option.some.inj h
    have hread := Toml.statement?_pair field.isBare_key (field.head?_valueText s ('\n' :: rest))
      (fun fuel => field.value?_valueText s fuel rest)
    simpa [text, pairLine, Toml.pairEntry] using hread
  | gap => cases h

/-- Whatever parts a file consists of, it is read part by part. -/
theorem entries?_parts (s : Settings) (ps : List Part) {fuel : Nat} (hf : ps.length < fuel) :
    Toml.entries? fuel (ps.flatMap (Part.text s)) = some (ps.filterMap (Part.asEntry s)) := by
  induction ps generalizing fuel with
  | nil =>
    obtain ⟨fuel, rfl⟩ := Nat.exists_eq_succ_of_ne_zero (Nat.ne_of_gt hf)
    rfl
  | cons part ps ih =>
    rw [List.flatMap_cons]
    rw [List.length_cons] at hf
    cases he : part.asEntry s with
    | none =>
      have hgap : part = .gap := by cases part <;> simp_all [Part.asEntry]
      rw [List.filterMap_cons_none he, hgap]
      exact (Toml.entries?_newline fuel _).trans (ih (by omega))
    | some e =>
      obtain ⟨c, t, hc, hfront⟩ := Part.exists_text_eq he
      have hread := Part.statement?_text he (ps.flatMap (Part.text s))
      obtain ⟨fuel, rfl⟩ := Nat.exists_eq_succ_of_ne_zero (Nat.ne_of_gt (Nat.zero_lt_of_lt hf))
      rw [hc, List.cons_append] at hread ⊢
      rw [Toml.entries?_cons hfront hread, ih (by omega), List.filterMap_cons_some he]
      rfl

theorem Part.text_ne_nil (s : Settings) (part : Part) : part.text s ≠ [] := by
  cases part <;> simp [text, pairLine]

theorem Part.head?_text (s : Settings) (part : Part) (rest : Text) :
    (part.text s ++ rest).head? ≠ some '\ufeff' := by
  cases he : part.asEntry s with
  | none =>
    have hgap : part = .gap := by cases part <;> simp_all [asEntry]
    rw [hgap]
    simp [text]
  | some e =>
    obtain ⟨c, t, hc, hfront⟩ := exists_text_eq he
    rw [hc]
    rintro h
    obtain rfl := Option.some.inj h
    revert hfront
    decide

theorem length_le_flatMap_text (s : Settings) (ps : List Part) :
    ps.length ≤ (ps.flatMap (Part.text s)).length := by
  induction ps with
  | nil => simp
  | cons part ps ih =>
    have hpart := List.length_pos_iff.mpr (part.text_ne_nil s)
    rw [List.flatMap_cons, List.length_append, List.length_cons]
    omega

theorem ofText?_parts (s : Settings) (ps : List Part) :
    Toml.ofText? (ps.flatMap (Part.text s)) = Toml.ofEntries? (ps.filterMap (Part.asEntry s)) := by
  have hentries := entries?_parts s ps (Nat.lt_succ_of_le (length_le_flatMap_text s ps))
  have hmark : ∀ rest, ps.flatMap (Part.text s) ≠ '\ufeff' :: rest := by
    cases ps with
    | nil => simp
    | cons part ps =>
      intro rest h
      refine part.head?_text s (ps.flatMap (Part.text s)) ?_
      rw [← List.flatMap_cons, h]
      rfl
  rw [Toml.ofText?, hentries]
  · rfl
  · exact hmark

/-- The settings with initial ones for the fields that are not kept. -/
def keeping (kept : Field → Bool) (s : Settings) : Settings where
  extension := if kept .extension then s.extension else initial.extension
  outputDirName := if kept .outputDirName then s.outputDirName else initial.outputDirName
  recursive := if kept .recursive then s.recursive else initial.recursive
  writer := if kept .writer then s.writer else initial.writer
  kernel := {
    name := if kept .kernelName then s.kernel.name else initial.kernel.name
    language := if kept .kernelLanguage then s.kernel.language else initial.kernel.language
    displayName := if kept .displayName then s.kernel.displayName else initial.kernel.displayName }

/-- The headers are there of all tables whose fields are. -/
def HeadersKept (keep : Part → Bool) : Prop :=
  ∀ field, keep (.entry field) = true → keep (.header field.table) = true

variable {keep : Part → Bool}

def Section.pairs (keep : Part → Bool) (s : Settings) (table : Section) : Toml.Table :=
  (table.fields.filter fun field => keep (.entry field)).map fun field =>
    (field.key.toList, field.value s)

def keptTables (keep : Part → Bool) : List Section :=
  [Section.defaults, .kernel].filter fun table => keep (.header table)

def keptToml (keep : Part → Bool) (s : Settings) : Toml.Table :=
  (keptTables keep).map fun table => (table.key.toList, .table .header (table.pairs keep s))

theorem Field.table_of_mem_fields {field : Field} {table : Section} (h : field ∈ table.fields) :
    field.table = table := by
  revert h
  cases table <;> cases field <;> decide

theorem Field.mem_fields (field : Field) : field ∈ field.table.fields := by
  cases field <;> decide

theorem Section.pairs_eq_nil (s : Settings) (hk : HeadersKept keep) {table : Section}
    (h : keep (.header table) = false) : table.pairs keep s = [] := by
  have hfields : table.fields.filter (fun field => keep (.entry field)) = [] := by
    refine List.filter_eq_nil_iff.mpr fun field hf hkeep => ?_
    have hheader := hk field hkeep
    rw [Field.table_of_mem_fields hf, h] at hheader
    cases hheader
  rw [pairs, hfields]
  rfl

theorem Section.entries_filter_parts (s : Settings) (hk : HeadersKept keep) (table : Section) :
    (table.parts.filter keep).filterMap (Part.asEntry s) =
      if keep (.header table) then Toml.tableEntries (table.key.toList, table.pairs keep s)
      else [] := by
  have hpairs : ((table.fields.map Part.entry).filter keep).filterMap (Part.asEntry s) =
      (table.pairs keep s).map Toml.pairEntry := by
    rw [List.filter_map, List.filterMap_map, pairs, List.map_map]
    exact congrFun List.filterMap_eq_map _
  cases hheader : keep (.header table) with
  | true =>
    rw [parts, List.filter_cons_of_pos hheader]
    exact congrArg (List.cons _) hpairs
  | false =>
    rw [parts, List.filter_cons_of_neg (by simp [hheader]), hpairs, pairs_eq_nil s hk hheader]
    rfl

/-- The entries left in a file are those of the tables that are kept. -/
theorem entries_filter_parts (s : Settings) (hk : HeadersKept keep) :
    (parts.filter keep).filterMap (Part.asEntry s) =
      ((keptTables keep).map fun table =>
        (table.key.toList, table.pairs keep s)).flatMap Toml.tableEntries := by
  have hgap : (([Part.gap]).filter keep).filterMap (Part.asEntry s) = [] := by
    cases hkeep : keep .gap <;> simp [hkeep, Part.asEntry]
  have hsplit : parts = Section.defaults.parts ++ ([Part.gap] ++ Section.kernel.parts) := rfl
  rw [hsplit, List.filter_append, List.filter_append, List.filterMap_append,
    List.filterMap_append, Section.entries_filter_parts s hk, Section.entries_filter_parts s hk,
    hgap]
  cases hd : keep (.header .defaults) <;> cases hkernel : keep (.header .kernel) <;>
    simp [keptTables, hd, hkernel]

theorem ofText?_filter_parts (s : Settings) (hk : HeadersKept keep) (gaps : Nat) :
    Toml.ofText? ((parts.filter keep).flatMap (Part.text s) ++ List.replicate gaps '\n') =
      some (keptToml keep s) := by
  have htables : ([Section.defaults, .kernel].map fun table => table.key.toList).Nodup := by decide
  have hfields (table : Section) : (table.fields.map fun field => field.key.toList).Nodup := by
    cases table <;> decide
  have hgaps : List.replicate gaps '\n' = (List.replicate gaps Part.gap).flatMap (Part.text s) := by
    induction gaps with
    | zero => rfl
    | succ gaps ih => rw [List.replicate_succ, ih]; rfl
  have hnone : (List.replicate gaps Part.gap).filterMap (Part.asEntry s) = [] :=
    List.filterMap_eq_nil_iff.mpr fun part hm => by rw [List.eq_of_mem_replicate hm]; rfl
  rw [hgaps, ← List.flatMap_append, ofText?_parts, List.filterMap_append, hnone, List.append_nil,
    entries_filter_parts s hk, Toml.ofEntries?_tables, List.map_map]
  · rfl
  · rw [List.map_map]
    exact htables.sublist (List.filter_sublist.map _)
  · intro table hm
    obtain ⟨table, -, rfl⟩ := List.mem_map.mp hm
    rw [Section.pairs, List.map_map]
    exact (hfields table).sublist (List.filter_sublist.map _)

theorem Section.key_injective : Function.Injective fun table : Section => table.key.toList := by
  intro s t h
  revert h
  cases s <;> cases t <;> decide

theorem Field.key_injective : Function.Injective fun field : Field => field.key.toList := by
  intro f g h
  revert h
  cases f <;> cases g <;> decide

theorem get?_pairs (keep : Part → Bool) (s : Settings) (field : Field) :
    (field.table.pairs keep s).get? field.key.toList =
      if keep (.entry field) then some (field.value s) else none := by
  have hget := Toml.Table.get?_map Field.key_injective (Field.value s) field
    (field.table.fields.filter fun f => keep (.entry f))
  rw [Section.pairs]
  simpa [field.mem_fields] using hget

/-- A table that has gone is read like one without pairs. -/
theorem section?_keptToml (s : Settings) (hk : HeadersKept keep) (table : Section)
    (names : List String) : section? (keptToml keep s) table.key names =
      some (table.pairs keep s) := by
  have hmem : table ∈ keptTables keep ↔ keep (.header table) = true := by
    cases table <;> simp [keptTables]
  have hget := Toml.Table.get?_map Section.key_injective
    (fun table => .table .header (table.pairs keep s)) table (keptTables keep)
  rw [section?, keptToml, hget]
  cases hheader : keep (.header table) with
  | true =>
    rw [if_pos (hmem.mpr hheader)]
    rfl
  | false =>
    rw [if_neg (by simp [hmem, hheader]), Section.pairs_eq_nil s hk hheader]

theorem text?_pairs (keep : Part → Bool) (s : Settings) (field : Field) {t : Text}
    (hv : field.value s = .string t) (default : Text) :
    text? (field.table.pairs keep s) field.key default =
      some (if keep (.entry field) then t else default) := by
  rw [text?, get?_pairs, hv]
  cases keep (.entry field) <;> rfl

theorem bool?_pairs (keep : Part → Bool) (s : Settings) (field : Field) {b : Bool}
    (hv : field.value s = .bool b) (default : Bool) :
    bool? (field.table.pairs keep s) field.key default =
      some (if keep (.entry field) then b else default) := by
  rw [bool?, get?_pairs, hv]
  cases keep (.entry field) <;> rfl

theorem writer?_pairs (keep : Part → Bool) (s : Settings) (field : Field) {choice : WriterChoice}
    (hv : field.value s = .string choice.name) (default : WriterChoice) :
    writer? (field.table.pairs keep s) field.key default =
      some (if keep (.entry field) then choice else default) := by
  rw [writer?, get?_pairs, hv]
  cases keep (.entry field) with
  | true =>
    simp only [if_true, WriterChoice.ofName_name]
    rfl
  | false => rfl

/-- The kept parts of a printed file hold the settings, with initial ones for the fields that are
not kept. -/
theorem ofTable?_keptToml (s : Settings) (hk : HeadersKept keep) :
    ofTable? (keptToml keep s) = some (s.keeping fun field => keep (.entry field)) := by
  have hdefaults (names : List String) : section? (keptToml keep s) "defaults" names =
      some (Section.defaults.pairs keep s) := section?_keptToml s hk .defaults names
  have hkernel (names : List String) : section? (keptToml keep s) "kernel" names =
      some (Section.kernel.pairs keep s) := section?_keptToml s hk .kernel names
  have hextension := text?_pairs keep s .extension rfl initial.extension
  have houtputDirName := text?_pairs keep s .outputDirName rfl initial.outputDirName
  have hname := text?_pairs keep s .kernelName rfl initial.kernel.name
  have hdisplayName := text?_pairs keep s .displayName rfl initial.kernel.displayName
  have hlanguage := text?_pairs keep s .kernelLanguage rfl initial.kernel.language
  have hrecursive := bool?_pairs keep s .recursive rfl initial.recursive
  have hwriter := writer?_pairs keep s .writer rfl initial.writer
  simp only [Field.table, Field.key] at hextension houtputDirName hrecursive hwriter
  simp only [Field.table, Field.key] at hname hdisplayName hlanguage
  rw [ofTable?]
  simp only [hdefaults, hkernel, hextension, houtputDirName, hrecursive, hwriter, hname,
    hdisplayName, hlanguage, Option.bind_eq_bind, Option.bind_some]
  rfl

def remaining (keep : Part → Bool) (s : Settings) : Text :=
  (parts.filter keep).flatMap (Part.text s)

theorem ofText?_remaining (s : Settings) (hk : HeadersKept keep) (gaps : Nat) :
    ofText? (s.remaining keep ++ List.replicate gaps '\n') =
      some (s.keeping fun field => keep (.entry field)) := by
  rw [ofText?, remaining, ofText?_filter_parts s hk]
  exact ofTable?_keptToml s hk

theorem ofText?_toText (s : Settings) (gaps : Nat) :
    ofText? (s.toText ++ List.replicate gaps '\n') = some s := by
  have hall : HeadersKept fun _ => true := fun _ _ => rfl
  have hread := ofText?_remaining s hall gaps
  rwa [remaining, List.filter_true, ← toText_eq_parts] at hread

theorem loadFrom_of_readText {tree : FileTree} {p : Path} {t : Text} {s : Settings}
    (hr : tree.readText p = .ok t) (ht : ofText? t = some s) : loadFrom tree p = .ok s := by
  simp only [loadFrom, hr, Except.mapError, bind, Except.bind, ht]
  rfl

end Settings

namespace Program

open CommandLine

theorem stdout_of_show {tree : FileTree} {home : Path} {ids : IdSupply} {args : Arguments}
    (hc : args.command = .showSettings) (h : (execute tree home ids args).exitStatus = 0) :
    ∃ s : Settings, (execute tree home ids args).stdout = s.toText ++ ['\n'] := by
  rw [execute, hc] at h ⊢
  dsimp only at h ⊢
  cases hload : Settings.load tree home args.taken.settingsFile with
  | error failure =>
    rw [hload] at h
    cases h
  | ok s => exact ⟨s, rfl⟩

theorem execute_show {tree : FileTree} {p : Path} {s : Settings} (home : Path) (ids : IdSupply)
    {args : Arguments} (hc : args.command = .showSettings) (hp : args.taken.settingsFile = some p)
    (hl : Settings.loadFrom tree p = .ok s) :
    execute tree home ids args = quiet tree (s.toText ++ ['\n']) [] 0 := by
  rw [execute, hc]
  dsimp only
  rw [hp, Settings.load, hl]
  rfl

end Program

namespace Settings

open CommandLine

/-- A printed settings file loads as the settings.  Whichever entries are taken out of it, and the
headers of empty tables with them or not, it loads as the settings with initial ones for what is
missing; and showing the settings of a file that showing has printed prints the same again. -/
theorem printed_loads_back :
    (∀ (s : Settings) (tree : FileTree) (p : Path), tree.readText p = .ok s.toText →
      loadFrom tree p = .ok s) ∧
    (∀ (s : Settings) (keep : Part → Bool) (tree : FileTree) (p : Path), HeadersKept keep →
      tree.readText p = .ok (s.remaining keep) →
      loadFrom tree p = .ok (s.keeping fun field => keep (.entry field))) ∧
    ∀ (tree later : FileTree) (home home' : Path) (ids ids' : IdSupply) (shown again : Arguments)
      (p : Path), shown.command = .showSettings →
      (Program.execute tree home ids shown).exitStatus = 0 →
      again.command = .showSettings → again.taken.settingsFile = some p →
      later.readText p = .ok (Program.execute tree home ids shown).stdout →
      Program.execute later home' ids' again =
        Program.quiet later (Program.execute tree home ids shown).stdout [] 0 := by
  refine ⟨fun s tree p hr => ?_, fun s keep tree p hk hr => ?_, ?_⟩
  · have hread := ofText?_toText s 0
    rw [List.replicate_zero, List.append_nil] at hread
    exact loadFrom_of_readText hr hread
  · have hread := ofText?_remaining s hk 0
    rw [List.replicate_zero, List.append_nil] at hread
    exact loadFrom_of_readText hr hread
  · intro tree later home home' ids ids' shown again p hshown hexit hagain hp hr
    obtain ⟨s, hs⟩ := Program.stdout_of_show hshown hexit
    rw [hs] at hr ⊢
    exact Program.execute_show home' ids' hagain hp
      (loadFrom_of_readText hr (ofText?_toText s 1))

end Settings

namespace FileTree

theorem text?_toUTF8 (t : Text) : text? (String.ofList t).toUTF8 = some t := by
  have hread : String.fromUTF8? (String.ofList t).toUTF8 = some (String.ofList t) :=
    dif_pos (String.ofList t).isValidUTF8
  rw [text?, hread, Option.map_some, String.toList_ofList]

theorem readText_of_locate {tree : FileTree} {p : Path} {location : Location} {t : Text}
    (hl : tree.locate .look p = .ok location) (hf : tree.find? location = some (.ofText t)) :
    tree.readText p = .ok t := by
  have hbytes : tree.readBytes p = .ok (String.ofList t).toUTF8 := by
    simp only [readBytes, lookup, hl, hf, Entry.ofText, bind, Except.bind]
  simp only [readText, hbytes, text?_toUTF8, bind, Except.bind]

end FileTree

namespace Settings

open CommandLine

def quotedSettings : Settings where
  extension := "p\"y'".toList
  outputDirName := "'''\"\"\"\n\\".toList
  recursive := true
  writer := .plain
  kernel := ⟨"a\x07b".toList, "\nr\t'".toList, "\"\"\"\"".toList⟩

/-- Everything but the entries of the output folder and the writer and the table of the kernel. -/
def keptSample : Part → Bool
  | .entry .extension | .entry .recursive | .header .defaults | .gap => true
  | _ => false

/-- A file as printed, one with what is kept of it, and one that showing has printed. -/
def quotedTree : FileTree where
  entries := [(["all.toml".toList], .ofText quotedSettings.toText),
    (["some.toml".toList], .ofText (quotedSettings.remaining keptSample)),
    (["shown.toml".toList], .ofText (quotedSettings.toText ++ ['\n']))]
  here := []

def showing (name : String) : Arguments :=
  ⟨.showSettings, { Taken.nothing with settingsFile := some (.ofString name) }⟩

theorem printed_loads_back_quoted :
    HeadersKept keptSample ∧
      loadFrom quotedTree (.ofString "all.toml") = .ok quotedSettings ∧
      loadFrom quotedTree (.ofString "some.toml") =
        .ok { initial with extension := quotedSettings.extension, recursive := true } ∧
      Program.execute quotedTree ⟨[]⟩ (.sequential 0) (showing "shown.toml") =
        Program.quiet quotedTree (quotedSettings.toText ++ ['\n']) [] 0 := by
  have hkept : HeadersKept keptSample := by
    intro field
    cases field <;> decide
  have hread (name : String) {t : Text} (hl : quotedTree.locate .look (.ofString name) =
      .ok [name.toList]) (hf : quotedTree.find? [name.toList] = some (.ofText t)) :
      quotedTree.readText (.ofString name) = .ok t := FileTree.readText_of_locate hl hf
  have hall : quotedTree.readText (.ofString "all.toml") = .ok quotedSettings.toText :=
    hread "all.toml" (by decide +kernel) rfl
  have hsome : quotedTree.readText (.ofString "some.toml") =
      .ok (quotedSettings.remaining keptSample) := hread "some.toml" (by decide +kernel) rfl
  have hshown : quotedTree.readText (.ofString "shown.toml") =
      .ok (quotedSettings.toText ++ ['\n']) := hread "shown.toml" (by decide +kernel) rfl
  obtain ⟨hload, hpart, hshow⟩ := printed_loads_back
  have hfirst : Program.execute quotedTree ⟨[]⟩ (.sequential 0) (showing "all.toml") =
      Program.quiet quotedTree (quotedSettings.toText ++ ['\n']) [] 0 :=
    Program.execute_show _ _ rfl rfl (hload quotedSettings quotedTree _ hall)
  have hagain := hshow quotedTree quotedTree ⟨[]⟩ ⟨[]⟩ (.sequential 0) (.sequential 0)
    (showing "all.toml") (showing "shown.toml") (.ofString "shown.toml") rfl
  rw [hfirst] at hagain
  exact ⟨hkept, hload quotedSettings quotedTree _ hall,
    hpart quotedSettings keptSample quotedTree _ hkept hsome, hagain rfl rfl rfl hshown⟩

end Settings

end ScriptNotebook
