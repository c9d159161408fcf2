import Mathlib.Data.List.Find
import ScriptNotebook.Notebook.Reader
import ScriptNotebook.Proofs.Assembly
import ScriptNotebook.Proofs.OrderedDocument

/-!
Notebooks that writing and reading give back.  The document of a notebook is read record by record
as the notebook, so that both writers can be undone, whatever the outputs of its cells are as long
as these read back themselves.
-/
namespace ScriptNotebook

open Json (Form ofText ofTexts)

theorem mapM_eq_some_map {α β : Type} {f : α → Option β} {g : α → β} {l : List α}
    (h : ∀ a ∈ l, f a = some (g a)) : l.mapM f = some (l.map g) := by
  induction l with
  | nil => rfl
  | cons a l ih =>
    rw [List.mapM_cons, h a List.mem_cons_self, ih fun b hb => h b (List.mem_cons_of_mem a hb)]
    rfl

namespace Json.Form

theorem named?_memberForms (ms : List (Text × Json)) :
    named? (memberForms ms) = some (ms.map fun m => (m.1, m.2.toForm)) := by
  rw [named?, memberForms_eq_map, List.mapM_map]
  refine mapM_eq_some_map fun m _ => ?_
  dsimp only [Function.comp_apply]
  rw [Piece.text?_map_pieceOf]
  rfl

theorem exists_fields?_object (names keys : List String) {ms : List (Text × Json)}
    (hk : ms.map (·.1) = fieldNames keys)
    (h : ((fieldNames keys).filter (fieldNames names).contains).Nodup) :
    ∃ fields, fields? (fieldNames names) (Json.object ms).toForm = some fields ∧
      ∀ name ∈ names, given? fields name = ((Json.object ms).member? name.toList).map toForm := by
  let named := ms.map fun m => (m.1, m.2.toForm)
  let asked (m : Text × Form) : Bool := (fieldNames names).contains m.1
  have hnamed : named.map (·.1) = fieldNames keys := by
    rw [← hk, List.map_map]
    rfl
  have hkeys : ((named.filter asked).map (·.1)).Nodup := by
    have hfilter : (named.map (·.1)).filter (fieldNames names).contains =
        (named.filter asked).map (·.1) := List.filter_map
    rw [← hfilter, hnamed]
    exact h
  refine ⟨named.filter asked, ?_, fun name hname => ?_⟩
  · rw [Json.toForm, fields?, named?_memberForms]
    exact if_pos hkeys
  · have hasked : ∀ m : Text × Form, (m.1 == name.toList) = true → asked m = true := by
      intro m hm
      rw [beq_iff_eq] at hm
      simp only [asked, hm, fieldNames, List.contains_iff_mem]
      exact List.mem_map_of_mem hname
    have hfind : (named.filter asked).find? (fun m => m.1 == name.toList) =
        named.find? fun m => m.1 == name.toList := by
      rw [List.find?_filter]
      refine List.find?_congr fun m _ => Bool.eq_iff_iff.mpr ?_
      rw [decide_eq_true_iff]
      exact ⟨And.right, fun hm => ⟨hasked m hm, hm⟩⟩
    rw [given?, hfind, List.find?_map, member?, Option.map_map, Option.map_map]
    rfl

@[simp] theorem text?_ofText (t : Text) : text? (ofText t).toForm = some t :=
  Piece.text?_map_pieceOf t

@[simp] theorem texts?_ofTexts (ts : List Text) : texts? (ofTexts ts).toForm = some ts := by
  have htext : ∀ t ∈ ts, (text? ∘ Json.toForm ∘ Json.string) t = some t :=
    fun t _ => text?_ofText t
  rw [ofTexts, toForm, itemForms_eq_map, texts?, List.map_map, List.mapM_map,
    mapM_eq_some_map htext, List.map_id']

@[simp] theorem word?_ofInt (n : UInt32) : word? (.number (Numeral.ofInt n.toNat)) = some n := by
  have hlt : n.toNat < Nat.pow 2 32 := n.toNat_lt
  have hint : (Numeral.ofInt n.toNat).integer? = some (.ofNat n.toNat) :=
    Numeral.integer?_ofNat (Nat.lt_trans hlt (by decide))
  rw [word?, hint]
  dsimp only
  rw [if_pos hlt, UInt32.ofNat_toNat]

end Json.Form

theorem CellMetadata.ofForm?_toForm (metadata : CellMetadata) :
    ofForm? metadata.toJson.ordered.toForm = some metadata := by
  let members := [field "id" (ofText metadata.id), field "language" (ofText metadata.language)]
  have hkeys : members.map (·.1) = fieldNames ["id", "language"] := rfl
  obtain ⟨fields, hfields, hgiven⟩ :=
    Form.exists_fields?_object ["language", "id"] _ hkeys (by decide)
  have hlanguage : given? fields "language" = some (ofText metadata.language).toForm :=
    hgiven "language" (by decide)
  have hid : given? fields "id" = some (ofText metadata.id).toForm := hgiven "id" (by decide)
  rw [ofForm?, ordered_toJson, hfields]
  simp only [Option.bind_eq_bind, Option.bind_some, hlanguage, hid, Form.text?_ofText]
  rfl

theorem KernelSpec.ofForm?_toForm (kernel : KernelSpec) :
    ofForm? kernel.toJson.ordered.toForm = some kernel := by
  let members := [field "display_name" (ofText kernel.displayName),
    field "language" (ofText kernel.language), field "name" (ofText kernel.name)]
  have hkeys : members.map (·.1) = fieldNames ["display_name", "language", "name"] := rfl
  obtain ⟨fields, hfields, hgiven⟩ :=
    Form.exists_fields?_object ["name", "language", "display_name"] _ hkeys (by decide)
  have hname : given? fields "name" = some (ofText kernel.name).toForm :=
    hgiven "name" (by decide)
  have hlanguage : given? fields "language" = some (ofText kernel.language).toForm :=
    hgiven "language" (by decide)
  have hdisplayName : given? fields "display_name" = some (ofText kernel.displayName).toForm :=
    hgiven "display_name" (by decide)
  rw [ofForm?, ordered_toJson, hfields]
  simp only [Option.bind_eq_bind, Option.bind_some, hname, hlanguage, hdisplayName,
    Form.text?_ofText]
  rfl

theorem NotebookMetadata.ofForm?_toForm (metadata : NotebookMetadata) :
    ofForm? metadata.toJson.ordered.toForm = some metadata := by
  let kernelspec := metadata.kernel.toJson.ordered
  let languageInfo := Json.object [field "name" (ofText metadata.languageName)]
  let members := [field "kernelspec" kernelspec, field "language_info" languageInfo]
  have hkeys : members.map (·.1) = fieldNames ["kernelspec", "language_info"] := rfl
  have hinfoKeys : [field "name" (ofText metadata.languageName)].map (·.1) =
      fieldNames ["name"] := rfl
  obtain ⟨fields, hfields, hgiven⟩ :=
    Form.exists_fields?_object ["kernelspec", "language_info"] _ hkeys (by decide)
  obtain ⟨info, hinfo, hinfoGiven⟩ :=
    Form.exists_fields?_object ["name"] _ hinfoKeys (by decide)
  have hkernelspec : given? fields "kernelspec" = some kernelspec.toForm :=
    hgiven "kernelspec" (by decide)
  have hlanguageInfo : given? fields "language_info" = some languageInfo.toForm :=
    hgiven "language_info" (by decide)
  have hname : given? info "name" = some (ofText metadata.languageName).toForm :=
    hinfoGiven "name" (by decide)
  have hkernel : KernelSpec.ofForm? kernelspec.toForm = some metadata.kernel :=
    KernelSpec.ofForm?_toForm metadata.kernel
  rw [ofForm?, ordered_toJson, hfields]
  simp only [Option.bind_eq_bind, Option.bind_some, hkernelspec, hlanguageInfo, hkernel,
    languageInfo, hinfo, hname, Form.text?_ofText]
  rfl

/-- The outputs of a cell; there are none in markdown. -/
def NotebookCell.outputs (cell : NotebookCell) : List Json :=
  match cell.body with
  | .markdown => []
  | .code _ outputs => outputs

theorem NotebookCell.outputs_ofLines (metadata : NotebookMetadata) (kind : CellKind) (id : Text)
    (lines : List Text) : (ofLines metadata kind id lines).outputs = [] := by
  cases kind <;> rfl

namespace Json

theorem readsBack_ofTexts (room : Nat) (ts : List Text) : (ofTexts ts).ReadsBack (room + 1) := by
  refine ReadsBack.array fun v hv => ?_
  obtain ⟨t, -, rfl⟩ := List.mem_map.mp hv
  exact readsBack_string room t

theorem readsBack_word (room : Nat) (n : UInt32) : (integer n.toNat).ReadsBack room := by
  have hlt : n.toNat < Nat.pow 2 64 := Nat.lt_trans n.toNat_lt (by decide)
  have hint : (Numeral.ofInt (.ofNat n.toNat)).json? = some (.integer n.toNat) := by
    rw [Numeral.json?, Numeral.integer?_ofNat hlt]
    rfl
  exact hint

theorem readsBack_ofCount (room : Nat) (count : Option UInt32) :
    (ofCount count).ReadsBack room := by
  cases count with
  | none => rfl
  | some n => exact readsBack_word room n

@[simp] theorem Form.optionalWord?_ofCount (count : Option UInt32) :
    optionalWord? (some (ofCount count).toForm) = some count := by
  cases count with
  | none => rfl
  | some n => exact congrArg (Option.map some) (word?_ofInt n)

end Json

theorem CellMetadata.readsBack (metadata : CellMetadata) (room : Nat) :
    metadata.toJson.ordered.ReadsBack (room + 1) := by
  rw [ordered_toJson]
  refine Json.ReadsBack.object (by simp [Json.Increasing, field, Text.before]) ?_
  simp [field, Json.ofText, Json.readsBack_string]

/-- A cell reads back in two containers more than its outputs. -/
theorem NotebookCell.readsBack {cell : NotebookCell} {room : Nat}
    (h : ∀ v ∈ cell.outputs, v.ReadsBack (room + 1)) :
    cell.toJson.ordered.ReadsBack (room + 3) := by
  obtain ⟨id, metadata, body, source⟩ := cell
  cases body with
  | markdown =>
    rw [ordered_toJson_markdown]
    refine Json.ReadsBack.object (by simp [Json.Increasing, field, Text.before]) ?_
    simp [field, Json.ofText, Json.readsBack_string, metadata.readsBack, Json.readsBack_ofTexts]
  | code executionCount outputs =>
    have houtputs : (Json.array outputs).ReadsBack (room + 2) := Json.ReadsBack.array h
    have hordered : outputs.map Json.ordered = outputs := Json.map_ordered_of_readsBack h
    rw [ordered_toJson_code, hordered]
    refine Json.ReadsBack.object (by simp [Json.Increasing, field, Text.before]) ?_
    simp [field, Json.ofText, Json.readsBack_string, metadata.readsBack, Json.readsBack_ofTexts,
      Json.readsBack_ofCount, houtputs]

theorem NotebookCell.tagged?_toForm (cell : NotebookCell) :
    tagged? cell.toJson.ordered.toForm = some (cell.kind, cell.toJson.ordered.toForm) := by
  obtain ⟨id, metadata, body, source⟩ := cell
  cases body <;>
    simp [ordered_toJson_markdown, ordered_toJson_code, Json.toForm, tagged?,
      Form.named?_memberForms, field, kind]

theorem NotebookCell.ofForm?_toForm {cell : NotebookCell}
    (h : ∀ v ∈ cell.outputs, v.ReadsBack (maxNesting - 2)) :
    ofForm? cell.toJson.ordered.toForm = some cell := by
  have hjson : cell.toJson.ordered.toForm.json? maxNesting = some cell.toJson.ordered :=
    readsBack h
  rw [ofForm?, hjson]
  simp only [tagged?_toForm, Option.bind_eq_bind, Option.bind_some]
  obtain ⟨id, metadata, body, source⟩ := cell
  cases body with
  | markdown =>
    let members := [field "cell_type" (ofText CellKind.markdown.name), field "id" (ofText id),
      field "metadata" metadata.toJson.ordered, field "source" (ofTexts source)]
    have hkeys : members.map (·.1) = fieldNames ["cell_type", "id", "metadata", "source"] := rfl
    obtain ⟨fields, hfields, hgiven⟩ :=
      Form.exists_fields?_object ["id", "metadata", "source"] _ hkeys (by decide)
    have hid : given? fields "id" = some (ofText id).toForm := hgiven "id" (by decide)
    have hmetadata : given? fields "metadata" = some metadata.toJson.ordered.toForm :=
      hgiven "metadata" (by decide)
    have hsource : given? fields "source" = some (ofTexts source).toForm :=
      hgiven "source" (by decide)
    simp only [kind, ordered_toJson_markdown, members] at hfields ⊢
    simp only [hfields, Option.bind_some, hid, hmetadata, hsource, Form.text?_ofText,
      Form.texts?_ofTexts, CellMetadata.ofForm?_toForm]
    rfl
  | code executionCount outputs =>
    let members := [field "cell_type" (ofText CellKind.code.name),
      field "execution_count" (Json.ofCount executionCount), field "id" (ofText id),
      field "metadata" metadata.toJson.ordered, field "outputs" (.array outputs),
      field "source" (ofTexts source)]
    have hkeys : members.map (·.1) =
      fieldNames ["cell_type", "execution_count", "id", "metadata", "outputs", "source"] := rfl
    obtain ⟨fields, hfields, hgiven⟩ :=
      Form.exists_fields?_object ["id", "metadata", "execution_count", "outputs", "source"] _
        hkeys (by decide)
    have hid : given? fields "id" = some (ofText id).toForm := hgiven "id" (by decide)
    have hmetadata : given? fields "metadata" = some metadata.toJson.ordered.toForm :=
      hgiven "metadata" (by decide)
    have hcount : given? fields "execution_count" = some (Json.ofCount executionCount).toForm :=
      hgiven "execution_count" (by decide)
    have houtputs : given? fields "outputs" = some (.array (Json.itemForms outputs)) :=
      hgiven "outputs" (by decide)
    have hsource : given? fields "source" = some (ofTexts source).toForm :=
      hgiven "source" (by decide)
    have hitems : Form.jsonItems? maxNesting (Json.itemForms outputs) = some outputs :=
      Form.jsonItems?_mono (by decide) _ (Json.jsonItems?_itemForms h)
    have hordered : outputs.map Json.ordered = outputs := Json.map_ordered_of_readsBack h
    simp only [kind, ordered_toJson_code, hordered, members] at hfields ⊢
    simp only [hfields, Option.bind_some, hid, hmetadata, hcount, houtputs, hitems, hsource,
      Form.text?_ofText, Form.texts?_ofTexts, CellMetadata.ofForm?_toForm,
      Json.Form.optionalWord?_ofCount]
    rfl

namespace Notebook

def DoubleFree (notebook : Notebook) : Prop :=
  ∀ cell ∈ notebook.cells, ∀ v ∈ cell.outputs, v.doubleFree = true

/-- The outputs of cells read back in the room that the notebook leaves them. -/
def OutputsReadBack (notebook : Notebook) : Prop :=
  ∀ cell ∈ notebook.cells, ∀ v ∈ cell.outputs, v.ReadsBack (NotebookCell.maxNesting - 2)

theorem ofForm?_toForm {notebook : Notebook} (h : notebook.OutputsReadBack) :
    ofForm? notebook.toJson.ordered.toForm = some notebook := by
  let cells := notebook.cells.map fun cell => cell.toJson.ordered
  let members := [field "cells" (.array cells),
    field "metadata" notebook.metadata.toJson.ordered,
    field "nbformat" (.integer notebook.version.major.toNat),
    field "nbformat_minor" (.integer notebook.version.minor.toNat)]
  have hkeys : members.map (·.1) =
    fieldNames ["cells", "metadata", "nbformat", "nbformat_minor"] := rfl
  obtain ⟨fields, hfields, hgiven⟩ := Form.exists_fields?_object
    ["cells", "metadata", "nbformat", "nbformat_minor"] _ hkeys (by decide)
  let items := Json.itemForms cells
  have hcells : given? fields "cells" = some (.array items) := hgiven "cells" (by decide)
  have hmetadata : given? fields "metadata" = some notebook.metadata.toJson.ordered.toForm :=
    hgiven "metadata" (by decide)
  have hmajor : given? fields "nbformat" =
      some (.number (.ofInt notebook.version.major.toNat)) := hgiven "nbformat" (by decide)
  have hminor : given? fields "nbformat_minor" =
      some (.number (.ofInt notebook.version.minor.toNat)) := hgiven "nbformat_minor" (by decide)
  have hitems : items.mapM NotebookCell.ofForm? = some notebook.cells := by
    have hcell : ∀ cell ∈ notebook.cells,
        (NotebookCell.ofForm? ∘ fun c => c.toJson.ordered.toForm) cell = some cell :=
      fun cell hm => NotebookCell.ofForm?_toForm (h cell hm)
    have hmap : items = notebook.cells.map fun cell => cell.toJson.ordered.toForm :=
      (Json.itemForms_eq_map _).trans List.map_map
    rw [hmap, List.mapM_map, mapM_eq_some_map hcell, List.map_id']
  rw [ofForm?, ordered_toJson, hfields]
  simp only [Option.bind_eq_bind, Option.bind_some, hcells, hitems, hmetadata,
    NotebookMetadata.ofForm?_toForm, hmajor, hminor, Form.word?_ofInt]
  rfl

/-- Whatever the indentation, a file of the notebook holds the notebook. -/
theorem ofText?_toFile {notebook : Notebook} (h : notebook.OutputsReadBack) (indent : Nat) :
    ofText? (notebook.toJson.ordered.toFile indent) = some notebook := by
  rw [ofText?, Form.ofText?_toFile]
  exact ofForm?_toForm h

theorem outputs_ofSource (metadata : NotebookMetadata) (source : Text) (ids : IdSupply) :
    ∀ cell ∈ (ofSource metadata source ids).1.cells, cell.outputs = [] := by
  intro cell hm
  rw [ofSource, ofCells, ScriptCell.assemble_eq] at hm
  obtain ⟨i, hi, rfl⟩ := List.mem_mapIdx.mp hm
  exact NotebookCell.outputs_ofLines _ _ _ _

end Notebook

theorem exists_of_mem_mapM {α β : Type} {f : α → Option β} {l : List α} {l' : List β}
    (h : l.mapM f = some l') : ∀ b ∈ l', ∃ a ∈ l, f a = some b := by
  induction l generalizing l' with
  | nil =>
    obtain rfl := Option.some.inj h
    simp
  | cons a l ih =>
    rw [List.mapM_cons] at h
    obtain ⟨b, hb, h⟩ := Option.bind_eq_some_iff.mp h
    obtain ⟨bs, hbs, h⟩ := Option.bind_eq_some_iff.mp h
    obtain rfl := Option.some.inj h
    intro c hc
    rcases List.mem_cons.mp hc with rfl | hc
    · exact ⟨a, List.mem_cons_self, hb⟩
    · obtain ⟨d, hd, hf⟩ := ih hbs c hc
      exact ⟨d, List.mem_cons_of_mem a hd, hf⟩

namespace Json.Form

def values : Form → List Form
  | .array items => items
  | .object members => members.map (·.2)
  | _ => []

theorem exists_json?_of_mem_items {room : Nat} {fs : List Form} {vs : List Json}
    (h : jsonItems? room fs = some vs) : ∀ f ∈ fs, ∃ v, f.json? room = some v := by
  induction fs generalizing vs with
  | nil => simp
  | cons g fs ih =>
    rw [jsonItems?] at h
    obtain ⟨w, hw, h⟩ := Option.bind_eq_some_iff.mp h
    obtain ⟨ws, hws, -⟩ := Option.bind_eq_some_iff.mp h
    intro f hf
    rcases List.mem_cons.mp hf with rfl | hf
    · exact ⟨w, hw⟩
    · exact ih hws f hf

theorem exists_json?_of_mem_members {room : Nat} {ms : List (List Piece × Form)}
    {vs : List (Text × Json)} (h : jsonMembers? room ms = some vs) :
    ∀ m ∈ ms, ∃ v, m.2.json? room = some v := by
  induction ms generalizing vs with
  | nil => simp
  | cons n ms ih =>
    rw [jsonMembers?] at h
    obtain ⟨key, -, h⟩ := Option.bind_eq_some_iff.mp h
    obtain ⟨w, hw, h⟩ := Option.bind_eq_some_iff.mp h
    obtain ⟨ws, hws, -⟩ := Option.bind_eq_some_iff.mp h
    intro m hm
    rcases List.mem_cons.mp hm with rfl | hm
    · exact ⟨w, hw⟩
    · exact ih hws m hm

theorem json?_values {room : Nat} {f : Form} {v : Json} (h : f.json? (room + 1) = some v) :
    ∀ g ∈ f.values, ∃ w, g.json? room = some w := by
  cases f with
  | array items =>
    rw [json?, if_neg (Nat.succ_ne_zero room)] at h
    obtain ⟨vs, hvs, -⟩ := Option.map_eq_some_iff.mp h
    exact exists_json?_of_mem_items hvs
  | object members =>
    rw [json?, if_neg (Nat.succ_ne_zero room)] at h
    obtain ⟨vs, hvs, -⟩ := Option.map_eq_some_iff.mp h
    intro g hg
    obtain ⟨m, hm, rfl⟩ := List.mem_map.mp hg
    exact exists_json?_of_mem_members hvs m hm
  | _ => simp [values]

theorem mem_values_of_fields? {names : List Text} {f : Form} {fields : List (Text × Form)}
    (h : f.fields? names = some fields) : ∀ m ∈ fields, m.2 ∈ f.values := by
  cases f with
  | array items =>
    rw [fields?] at h
    obtain ⟨-, h⟩ := Option.ite_none_right_eq_some.mp h
    obtain rfl := Option.some.inj h
    exact fun m hm => (List.of_mem_zip hm).2
  | object members =>
    obtain ⟨given, hgiven, h⟩ := Option.bind_eq_some_iff.mp h
    obtain ⟨-, h⟩ := Option.ite_none_right_eq_some.mp h
    obtain rfl := Option.some.inj h
    intro m hm
    obtain ⟨n, hn, hm⟩ := exists_of_mem_mapM hgiven m (List.mem_filter.mp hm).1
    obtain ⟨key, -, hm⟩ := Option.bind_eq_some_iff.mp hm
    obtain rfl := Option.some.inj hm
    exact List.mem_map.mpr ⟨n, hn, rfl⟩
  | _ => simp [fields?] at h

end Json.Form

theorem mem_of_given? {fields : List (Text × Form)} {name : String} {f : Form}
    (h : given? fields name = some f) : ∃ m ∈ fields, m.2 = f := by
  obtain ⟨m, hm, rfl⟩ := Option.map_eq_some_iff.mp h
  exact ⟨m, List.mem_of_find?_eq_some hm, rfl⟩

namespace NotebookCell

theorem values_of_tagged? {f record : Form} {kind : CellKind}
    (h : tagged? f = some (kind, record)) : ∀ g ∈ record.values, g ∈ f.values := by
  cases f with
  | array items =>
    cases items with
    | nil => simp [tagged?] at h
    | cons tag items =>
      obtain ⟨text, -, h⟩ := Option.bind_eq_some_iff.mp h
      obtain ⟨kind', -, h⟩ := Option.bind_eq_some_iff.mp h
      obtain ⟨-, rfl⟩ := Prod.mk.inj (Option.some.inj h)
      exact fun g hg => List.mem_cons_of_mem tag hg
  | object members =>
    obtain ⟨named, -, h⟩ := Option.bind_eq_some_iff.mp h
    dsimp only at h
    split at h
    · obtain ⟨text, -, h⟩ := Option.bind_eq_some_iff.mp h
      obtain ⟨kind', -, h⟩ := Option.bind_eq_some_iff.mp h
      obtain ⟨-, rfl⟩ := Prod.mk.inj (Option.some.inj h)
      exact fun g hg => hg
    · cases h
  | _ => simp [tagged?] at h

/-- The outputs of a cell that has been read lie two containers deeper than the cell. -/
theorem readsBack_of_ofForm? {f : Form} {cell : NotebookCell} (h : ofForm? f = some cell) :
    ∀ v ∈ cell.outputs, v.doubleFree = true → v.ReadsBack (maxNesting - 2) := by
  simp only [ofForm?, Option.bind_eq_bind, Option.bind_eq_some_iff] at h
  obtain ⟨j, hj, ⟨kind, record⟩, htagged, h⟩ := h
  cases kind with
  | markdown =>
    simp only [Option.bind_eq_some_iff] at h
    obtain ⟨_, -, _, -, id, -, _, -, metadata, -, _, -, source, -, h⟩ := h
    obtain rfl := Option.some.inj h
    simp [outputs]
  | code =>
    simp only [Option.bind_eq_some_iff] at h
    obtain ⟨fields, hfields, _, -, id, -, _, -, metadata, -, count, -, form, hform, h⟩ := h
    split at h
    · next items =>
      simp only [Option.bind_eq_some_iff] at h
      obtain ⟨outputs, houtputs, _, -, source, -, h⟩ := h
      obtain rfl := Option.some.inj h
      have hmem : Form.array items ∈ f.values := by
        obtain ⟨m, hm, hform⟩ := mem_of_given? hform
        rw [← hform]
        exact values_of_tagged? htagged _ (Form.mem_values_of_fields? hfields m hm)
      obtain ⟨w, hw⟩ := Form.json?_values hj _ hmem
      -- Read with the room of the cell, the outputs are what its own check made of them.
      have hitems : Form.jsonItems? (maxNesting - 2) items = some outputs := by
        rw [Form.json?, if_neg (by decide)] at hw
        obtain ⟨vs, hvs, -⟩ := Option.map_eq_some_iff.mp hw
        have hmore : Form.jsonItems? maxNesting items = some vs :=
          Form.jsonItems?_mono (by decide) items hvs
        rw [← Option.some.inj (hmore.symm.trans houtputs)]
        exact hvs
      exact Json.readsBack_of_jsonItems? items hitems
    · simp at h

end NotebookCell

namespace Notebook

/-- A notebook built from a script, or read from a text without doubles in the outputs. -/
inductive Obtained : Notebook → Prop
  | built (metadata : NotebookMetadata) (source : Text) (ids : IdSupply) :
      Obtained (ofSource metadata source ids).1
  | parsed {t : Text} {notebook : Notebook} (h : ofText? t = some notebook)
      (hd : notebook.DoubleFree) : Obtained notebook

theorem Obtained.outputsReadBack {notebook : Notebook} (h : notebook.Obtained) :
    notebook.OutputsReadBack := by
  cases h with
  | built metadata source ids =>
    intro cell hm
    simp [outputs_ofSource metadata source ids cell hm]
  | parsed h hd =>
    intro cell hm v hv
    simp only [ofText?, ofForm?, Option.bind_eq_bind, Option.bind_eq_some_iff] at h
    obtain ⟨f, -, fields, -, form, -, h⟩ := h
    split at h
    · next items =>
      simp only [Option.bind_eq_some_iff] at h
      obtain ⟨cells, hcells, _, -, metadata, -, _, -, major, -, _, -, minor, -, h⟩ := h
      obtain rfl := Option.some.inj h
      obtain ⟨g, -, hg⟩ := exists_of_mem_mapM hcells cell hm
      exact NotebookCell.readsBack_of_ofForm? hg v hv (hd cell hm v hv)
    · simp at h

/-- Reading undoes writing.  The plain writer always writes the notebook, the structured one does
if the notebook is valid, and what any writer writes is read as the notebook, which is then written
in the same way again. -/
theorem rendered_reads_back {notebook : Notebook} (h : notebook.Obtained) :
    (∃ text, Writer.plain.render notebook = .ok text ∧ ofText? text = some notebook) ∧
      (notebook.validate = .ok () →
        ∃ text, Writer.structured.render notebook = .ok text ∧ ofText? text = some notebook) ∧
      ∀ (writer : Writer) (text : Text), writer.render notebook = .ok text →
        ofText? text = some notebook ∧
          ∀ again, ofText? text = some again → writer.render again = .ok text := by
  have hfile := ofText?_toFile h.outputsReadBack
  refine ⟨⟨_, Writer.render_plain notebook, hfile 2⟩,
    fun hvalid => ⟨_, Writer.render_structured hvalid, hfile 1⟩, ?_⟩
  intro writer text hrender
  obtain ⟨indent, htext⟩ := Writer.exists_indent_of_render hrender
  have hread : ofText? text = some notebook := by
    rw [htext]
    exact hfile indent
  refine ⟨hread, fun again hagain => ?_⟩
  rw [← Option.some.inj (hread.symm.trans hagain)]
  exact hrender

instance (notebook : Notebook) : Decidable notebook.DoubleFree :=
  inferInstanceAs (Decidable (∀ cell ∈ notebook.cells, ∀ v ∈ cell.outputs, v.doubleFree = true))

/-- A notebook that has been run, some of its records written as arrays. -/
def runText : Text :=
  "\x7b\"nbformat_minor\": 5, \"nbformat\": 4, ".toList
    ++ "\"metadata\": [[\"python3\", \"python\", \"Python 3\"], [\"python\"]], ".toList
    ++ "\"cells\": [[\"code\", \"c1\", [\"python\", \"c1\"], 2, ".toList
    ++ "[\x7b\"b\": \"\\u00e9\", \"a\": [-7, null], \"b\": \"\\u0001\"\x7d], ".toList
    ++ "[\"x\\n\"]]]\x7d".toList

def runNotebook : Notebook where
  cells := [⟨"c1".toList, ⟨"python".toList, "c1".toList⟩,
    .code (some 2) [.object [("a".toList, .array [.integer (-7), .null]),
      ("b".toList, .string ['\x01'])]], ["x\n".toList]⟩]
  metadata := ⟨⟨"python3".toList, "python".toList, "Python 3".toList⟩, "python".toList⟩
  version := .current

theorem rendered_reads_back_runNotebook :
    ofText? runText = some runNotebook ∧
      (∃ text, Writer.plain.render runNotebook = .ok text ∧ ofText? text = some runNotebook) ∧
      ∃ text, Writer.structured.render runNotebook = .ok text ∧
        ofText? text = some runNotebook := by
  have hread : ofText? runText = some runNotebook := by decide +kernel
  have hobtained : runNotebook.Obtained := .parsed hread (by decide +kernel)
  obtain ⟨hplain, hstructured, -⟩ := rendered_reads_back hobtained
  exact ⟨hread, hplain, hstructured (by decide +kernel)⟩

end Notebook

end ScriptNotebook
