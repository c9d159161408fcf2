import Mathlib.Data.List.Permutation
import ScriptNotebook.Proofs.AlikeForms
import ScriptNotebook.Proofs.OrderedDocument

/-!
One output for one notebook.  Texts that differ in nothing but the order of members, white space and
spelling are read as the same notebook or not at all, and the structured writer lists the members of
every object in the order of their keys' bytes.
-/
namespace ScriptNotebook

open Json (Form)

namespace Json.Form

variable {f g : Form}

theorem Alike.text?_eq (h : Alike f g) : f.text? = g.text? := by
  cases h with
  | string h => exact h
  | _ => rfl

theorem Alike.texts?_eq (h : Alike f g) : f.texts? = g.texts? := by
  cases h with
  | array h => exact mapM_eq_of_forall₂ h fun _ _ => text?_eq
  | _ => rfl

theorem json?_eq_integer_iff {n : Numeral} {i : Int} :
    n.json? = some (.integer i) ↔ n.integer? = some i := by
  rw [Numeral.json?]
  cases n.integer? <;> simp

theorem integer?_eq_of_json?_eq {m n : Numeral} (h : m.json? = n.json?) :
    m.integer? = n.integer? :=
  Option.ext fun i => by rw [← json?_eq_integer_iff, h, json?_eq_integer_iff]

theorem Alike.word?_eq (h : Alike f g) : f.word? = g.word? := by
  cases h with
  | number h => rw [word?, word?, integer?_eq_of_json?_eq h]
  | _ => rfl

theorem optionalWord?_eq {x y : Option Form} (h : Option.Rel Alike x y) :
    optionalWord? x = optionalWord? y := by
  cases h with
  | none => rfl
  | some h =>
    cases h with
    | number h => exact congrArg (Option.map some) (Alike.number h).word?_eq
    | _ => rfl

end Json.Form

open Json.Form (Alike)

variable {f g : Form}

theorem CellMetadata.ofForm?_eq (h : Alike f g) : ofForm? f = ofForm? g := by
  refine bind_eq_of_rel (h.fields? _) fun _ _ hgiven => ?_
  refine bind_eq_of_rel (hgiven "language") fun _ _ hlanguage => ?_
  rw [hlanguage.text?_eq]
  refine Option.bind_congr fun language _ => ?_
  refine bind_eq_of_rel (hgiven "id") fun _ _ hid => ?_
  rw [hid.text?_eq]

theorem KernelSpec.ofForm?_eq (h : Alike f g) : ofForm? f = ofForm? g := by
  refine bind_eq_of_rel (h.fields? _) fun _ _ hgiven => ?_
  refine bind_eq_of_rel (hgiven "name") fun _ _ hname => ?_
  rw [hname.text?_eq]
  refine Option.bind_congr fun name _ => ?_
  refine bind_eq_of_rel (hgiven "language") fun _ _ hlanguage => ?_
  rw [hlanguage.text?_eq]
  refine Option.bind_congr fun language _ => ?_
  refine bind_eq_of_rel (hgiven "display_name") fun _ _ hdisplayName => ?_
  rw [hdisplayName.text?_eq]

theorem NotebookMetadata.ofForm?_eq (h : Alike f g) : ofForm? f = ofForm? g := by
  refine bind_eq_of_rel (h.fields? _) fun _ _ hgiven => ?_
  refine bind_eq_of_rel (hgiven "kernelspec") fun _ _ hkernel => ?_
  rw [KernelSpec.ofForm?_eq hkernel]
  refine Option.bind_congr fun kernel _ => ?_
  refine bind_eq_of_rel (hgiven "language_info") fun _ _ hinfo => ?_
  refine bind_eq_of_rel (hinfo.fields? _) fun _ _ hgiven => ?_
  refine bind_eq_of_rel (hgiven "name") fun _ _ hname => ?_
  rw [hname.text?_eq]

namespace NotebookCell

theorem tagged?_rel (h : Alike f g) :
    Option.Rel (fun s t => s.1 = t.1 ∧ Alike s.2 t.2) (tagged? f) (tagged? g) := by
  cases h with
  | array h =>
    cases h with
    | nil => exact .none
    | @cons tag tag' items items' htag h =>
      rw [tagged?, tagged?, htag.text?_eq]
      refine rel_bind_self tag'.text? fun text => ?_
      refine rel_bind_self (CellKind.ofName? text) fun kind => ?_
      exact .some ⟨rfl, .array h⟩
  | object hkeys h hp =>
    have hobject : Alike (.object _) (.object _) := .object hkeys h hp
    refine rel_bind (Json.Form.named?_object hobject) fun s t hst => ?_
    obtain ⟨tags, hturn, hperm⟩ := hst.filter (· == "cell_type".toList)
    dsimp only
    generalize (s.filter fun m => m.1 == "cell_type".toList) = u at hturn ⊢
    generalize (t.filter fun m => m.1 == "cell_type".toList) = v at hperm ⊢
    cases hturn with
    | nil =>
      obtain rfl := List.nil_perm.mp hperm
      exact .none
    | @cons m n _ _ hmn hrest =>
      cases hrest with
      | nil =>
        obtain rfl := List.singleton_perm.mp hperm
        dsimp only
        rw [hmn.2.text?_eq]
        refine rel_bind_self n.2.text? fun text => ?_
        refine rel_bind_self (CellKind.ofName? text) fun kind => ?_
        exact .some ⟨rfl, hobject⟩
      | cons hmn' hrest =>
        have hlength := hperm.length_eq
        match v with
        | [] => exact .none
        | [_] => simp at hlength
        | _ :: _ :: _ => exact .none
  | _ => exact .none

theorem ofForm?_eq (h : Alike f g) : ofForm? f = ofForm? g := by
  rw [ofForm?, ofForm?, h.json?_eq]
  refine Option.bind_congr fun _ _ => ?_
  refine bind_eq_of_rel (tagged?_rel h) fun s t hst => ?_
  obtain ⟨kind, record⟩ := s
  obtain ⟨kind', record'⟩ := t
  obtain ⟨rfl, hrecord⟩ := hst
  cases kind with
  | markdown =>
    refine bind_eq_of_rel (hrecord.fields? _) fun _ _ hgiven => ?_
    refine bind_eq_of_rel (hgiven "id") fun _ _ hid => ?_
    rw [hid.text?_eq]
    refine Option.bind_congr fun id _ => ?_
    refine bind_eq_of_rel (hgiven "metadata") fun _ _ hmetadata => ?_
    rw [CellMetadata.ofForm?_eq hmetadata]
    refine Option.bind_congr fun metadata _ => ?_
    refine bind_eq_of_rel (hgiven "source") fun _ _ hsource => ?_
    rw [hsource.texts?_eq]
  | code =>
    refine bind_eq_of_rel (hrecord.fields? _) fun _ _ hgiven => ?_
    refine bind_eq_of_rel (hgiven "id") fun _ _ hid => ?_
    rw [hid.text?_eq]
    refine Option.bind_congr fun id _ => ?_
    refine bind_eq_of_rel (hgiven "metadata") fun _ _ hmetadata => ?_
    rw [CellMetadata.ofForm?_eq hmetadata]
    refine Option.bind_congr fun metadata _ => ?_
    rw [Json.Form.optionalWord?_eq (hgiven "execution_count")]
    refine Option.bind_congr fun executionCount _ => ?_
    refine bind_eq_of_rel (hgiven "outputs") fun _ _ houtputs => ?_
    cases houtputs with
    | array h =>
      dsimp only
      rw [Json.Form.Alike.jsonItems?_eq _ h]
      refine Option.bind_congr fun outputs _ => ?_
      refine bind_eq_of_rel (hgiven "source") fun _ _ hsource => ?_
      rw [hsource.texts?_eq]
    | _ => rfl

end NotebookCell

namespace Notebook

theorem ofForm?_eq (h : Alike f g) : ofForm? f = ofForm? g := by
  refine bind_eq_of_rel (h.fields? _) fun _ _ hgiven => ?_
  refine bind_eq_of_rel (hgiven "cells") fun _ _ hcells => ?_
  cases hcells with
  | array h =>
    dsimp only
    rw [mapM_eq_of_forall₂ h fun _ _ => NotebookCell.ofForm?_eq]
    refine Option.bind_congr fun cells _ => ?_
    refine bind_eq_of_rel (hgiven "metadata") fun _ _ hmetadata => ?_
    rw [NotebookMetadata.ofForm?_eq hmetadata]
    refine Option.bind_congr fun metadata _ => ?_
    refine bind_eq_of_rel (hgiven "nbformat") fun _ _ hmajor => ?_
    rw [hmajor.word?_eq]
    refine Option.bind_congr fun major _ => ?_
    refine bind_eq_of_rel (hgiven "nbformat_minor") fun _ _ hminor => ?_
    rw [hminor.word?_eq]
  | _ => rfl

end Notebook

namespace Json

namespace Form

mutual

/-- The keys of every object in the form are texts that increase strictly by their bytes. -/
def KeysIncrease : Form → Prop
  | array items => ItemsIncrease items
  | object members => MembersIncrease members ∧ members.Pairwise fun m n =>
      ∃ k l, Piece.text? m.1 = some k ∧ Piece.text? n.1 = some l ∧ k.utf8 < l.utf8
  | _ => True
termination_by structural f => f

def ItemsIncrease : List Form → Prop
  | [] => True
  | f :: fs => KeysIncrease f ∧ ItemsIncrease fs
termination_by structural fs => fs

def MembersIncrease : List (List Piece × Form) → Prop
  | [] => True
  | (_, f) :: ms => KeysIncrease f ∧ MembersIncrease ms
termination_by structural ms => ms

end

theorem itemsIncrease_itemForms {vs : List Json} (h : ∀ v ∈ vs, v.toForm.KeysIncrease) :
    ItemsIncrease (itemForms vs) := by
  induction vs with
  | nil => trivial
  | cons v vs ih =>
    obtain ⟨hv, hvs⟩ := List.forall_mem_cons.mp h
    exact ⟨hv, ih hvs⟩

theorem membersIncrease_memberForms {ms : List (Text × Json)}
    (h : ∀ m ∈ ms, m.2.toForm.KeysIncrease) : MembersIncrease (memberForms ms) := by
  induction ms with
  | nil => trivial
  | cons m ms ih =>
    obtain ⟨hm, hms⟩ := List.forall_mem_cons.mp h
    exact ⟨hm, ih hms⟩

end Form

theorem Increasing.pairwise_memberForms {ms : List (Text × Json)} (h : Increasing ms) :
    (memberForms ms).Pairwise fun m n =>
      ∃ k l, Piece.text? m.1 = some k ∧ Piece.text? n.1 = some l ∧ k.utf8 < l.utf8 := by
  rw [memberForms_eq_map, List.pairwise_map]
  exact h.imp fun hmn => ⟨_, _, Piece.text?_map_pieceOf _, Piece.text?_map_pieceOf _,
    Text.utf8_lt_of_before hmn⟩

mutual

theorem keysIncrease_ordered : (v : Json) → v.ordered.toForm.KeysIncrease
  | null => trivial
  | bool _ => trivial
  | integer _ => trivial
  | double _ => trivial
  | string _ => trivial
  | array items => Form.itemsIncrease_itemForms (keysIncrease_of_mem_orderedItems items)
  | object members =>
    ⟨Form.membersIncrease_memberForms fun m hm =>
        keysIncrease_of_mem_orderedMembers members m (mem_sortMembers hm),
      (increasing_sortMembers (orderedMembers members)).pairwise_memberForms⟩

theorem keysIncrease_of_mem_orderedItems : (vs : List Json) →
    ∀ v ∈ orderedItems vs, v.toForm.KeysIncrease
  | [], _, h => absurd h List.not_mem_nil
  | w :: ws, v, h => by
    rcases List.mem_cons.mp h with rfl | h
    · exact keysIncrease_ordered w
    · exact keysIncrease_of_mem_orderedItems ws v h

theorem keysIncrease_of_mem_orderedMembers : (ms : List (Text × Json)) →
    ∀ m ∈ orderedMembers ms, m.2.toForm.KeysIncrease
  | [], _, h => absurd h List.not_mem_nil
  | (_, w) :: ms, m, h => by
    rcases List.mem_cons.mp h with rfl | h
    · exact keysIncrease_ordered w
    · exact keysIncrease_of_mem_orderedMembers ms m h

end

end Json

namespace Notebook

/-- Texts that say the same but for the order of members hold one notebook or none.  The structured
writer fails on it, or gives it one text, in which the keys of every object are in order. -/
theorem structured_canonical {s t : Text} {f g : Form} (hs : Form.ofText? s = some f)
    (ht : Form.ofText? t = some g) (h : Alike f g) :
    (ofText? s = none ∧ ofText? t = none) ∨
      ∃ a b, ofText? s = some a ∧ ofText? t = some b ∧ a = b ∧
        ((∃ failure, Writer.structured.render a = .error failure ∧
            Writer.structured.render b = .error failure) ∨
          ∃ text form, Writer.structured.render a = .ok text ∧
            Writer.structured.render b = .ok text ∧
            Form.ofText? text = some form ∧ form.KeysIncrease) := by
  have hs' : ofText? s = ofForm? f := by rw [ofText?, hs]; rfl
  have ht' : ofText? t = ofForm? f := by rw [ofText?, ht, ofForm?_eq h]; rfl
  rw [hs', ht']
  cases ofForm? f with
  | none => exact Or.inl ⟨rfl, rfl⟩
  | some notebook =>
    refine Or.inr ⟨notebook, notebook, rfl, rfl, rfl, ?_⟩
    cases hrender : Writer.structured.render notebook with
    | error failure => exact Or.inl ⟨failure, rfl, rfl⟩
    | ok text =>
      obtain ⟨indent, htext⟩ := Writer.exists_indent_of_render hrender
      refine Or.inr ⟨text, _, rfl, rfl, ?_, Json.keysIncrease_ordered notebook.toJson⟩
      rw [htext]
      exact Json.Form.ofText?_toFile indent _

/-- A text of a notebook with one output, the version and the output left open. -/
def outputText (version output : String) : Text :=
  '\x7b' :: version.toList ++
    ", \"metadata\": [[\"n\", \"p\", \"d\"], [\"p\"]], \"cells\": [[\"code\", \"c\", ".toList ++
    "[\"p\", \"c\"], null, [".toList ++ output.toList ++ "], [\"x\"]]]\x7d".toList

def outputTexts : Text × Text :=
  (outputText "\"nbformat_minor\": 5, \"nbformat\": 4" "\x7b\"b\": \"\\u00e9\", \"a\": 1.50\x7d",
    outputText "\"nbformat\":4,\n\"nbformat_minor\":5" "\x7b\"a\": 15e-1, \"\\u0062\": \"é\"\x7d")

/-- A text written without escapes. -/
def spelled (t : String) : List Json.Piece := t.toList.map .char

def spelledArray (ts : List String) : Form := .array (ts.map fun t => .string (spelled t))

def outputForm (version : List (List Json.Piece × Form)) (output : Form) : Form :=
  .object (version ++ [
    (spelled "metadata", .array [spelledArray ["n", "p", "d"], spelledArray ["p"]]),
    (spelled "cells", .array [.array [.string (spelled "code"), .string (spelled "c"),
      spelledArray ["p", "c"], .null, .array [output], spelledArray ["x"]]])])

def outputMembers : Form × Form :=
  (.object [(spelled "b", .string [.unit 0xe9]),
      (spelled "a", .number ⟨false, ['1'], some ['5', '0'], none⟩)],
    .object [(spelled "a", .number ⟨false, ['1', '5'], none, some (true, ['1'])⟩),
      ([.unit 0x62], .string (spelled "é"))])

def outputForms : Form × Form :=
  let four : Form := .number ⟨false, ['4'], none, none⟩
  let five : Form := .number ⟨false, ['5'], none, none⟩
  (outputForm [(spelled "nbformat_minor", five), (spelled "nbformat", four)] outputMembers.1,
    outputForm [(spelled "nbformat", four), (spelled "nbformat_minor", five)] outputMembers.2)

theorem alike_spelledArray (ts : List String) : Alike (spelledArray ts) (spelledArray ts) := by
  refine .array (List.forall₂_same.mpr fun f hf => ?_)
  obtain ⟨t, -, rfl⟩ := List.mem_map.mp hf
  exact .string rfl

theorem alike_outputForms : Alike outputForms.1 outputForms.2 := by
  have houtput : Alike outputMembers.1 outputMembers.2 := by
    refine .object (by decide) (.cons ?_ (.string ?_) (.cons rfl (.number ?_) .nil)) (.swap _ _ _)
    · decide
    · decide
    · decide +kernel
  have hmetadata : Alike (.array [spelledArray ["n", "p", "d"], spelledArray ["p"]])
      (.array [spelledArray ["n", "p", "d"], spelledArray ["p"]]) :=
    .array (.cons (alike_spelledArray _) (.cons (alike_spelledArray _) .nil))
  have hcell := Alike.array (.cons (.string (s := spelled "code") rfl)
    (.cons (.string (s := spelled "c") rfl) (.cons (alike_spelledArray ["p", "c"]) (.cons .null
      (.cons (.array (.cons houtput .nil)) (.cons (alike_spelledArray ["x"]) .nil))))))
  exact .object (by decide) (.cons rfl (.number rfl) (.cons rfl (.number rfl)
    (.cons rfl hmetadata (.cons rfl (.array (.cons hcell .nil)) .nil)))) (.swap _ _ _)

set_option maxRecDepth 2000 in
theorem structured_canonical_outputTexts :
    Form.ofText? outputTexts.1 = some outputForms.1 ∧
      Form.ofText? outputTexts.2 = some outputForms.2 ∧ Alike outputForms.1 outputForms.2 ∧
      ∃ a b text form, ofText? outputTexts.1 = some a ∧ ofText? outputTexts.2 = some b ∧ a = b ∧
        Writer.structured.render a = .ok text ∧ Writer.structured.render b = .ok text ∧
        Form.ofText? text = some form ∧ form.KeysIncrease := by
  have hs : Form.ofText? outputTexts.1 = some outputForms.1 := by cbv
  have ht : Form.ofText? outputTexts.2 = some outputForms.2 := by cbv
  have hread : (ofText? outputTexts.1).map validate = some (.ok ()) := by decide +kernel
  obtain ⟨notebook, hn, hvalid⟩ := Option.map_eq_some_iff.mp hread
  refine ⟨hs, ht, alike_outputForms, ?_⟩
  rcases structured_canonical hs ht alike_outputForms with ⟨hnone, -⟩ | ⟨a, b, ha, hb, hab, h⟩
  · cases hn.symm.trans hnone
  obtain rfl : notebook = a := Option.some.inj (hn.symm.trans ha)
  rcases h with ⟨failure, hfails, -⟩ | ⟨text, form, hta, htb, hform, hkeys⟩
  · cases hfails.symm.trans (Writer.render_structured hvalid)
  · exact ⟨notebook, b, text, form, ha, hb, hab, hta, htb, hform, hkeys⟩

end Notebook

end ScriptNotebook
