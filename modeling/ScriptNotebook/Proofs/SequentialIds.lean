import Mathlib.Data.List.Nodup
import ScriptNotebook.Proofs.BatchOutcome
import ScriptNotebook.Proofs.OrderedDocument
import ScriptNotebook.Proofs.ValidNotebooks

/-!
Identifiers that count up.  A batch hands them out without a gap, one to each cell of the targets
that can be read.  They are well-formed, and all different until the numbers begin again, so that
every notebook of a batch is valid and the structured writer never gives up.
-/
namespace ScriptNotebook

namespace Text

theorem eq_of_hex_eq {width m n : Nat} (hm : m < Nat.pow 16 width) (hn : n < Nat.pow 16 width)
    (h : hex width m = hex width n) : m = n := by
  have hvalue := congrArg hexNumber? h
  rw [hexNumber?_hex, hexNumber?_hex, Nat.mod_eq_of_lt hm, Nat.mod_eq_of_lt hn] at hvalue
  exact Option.some.inj hvalue

theorem isIdChar_of_mem_hex {width n : Nat} {c : Char} (h : c ∈ hex width n) :
    isIdChar c = true := by
  have hdigit : ∀ d < 16, isIdChar d.digitChar = true := by decide
  induction width generalizing n with
  | zero => simp [hex] at h
  | succ width ih =>
    rw [hex, List.mem_append, List.mem_singleton] at h
    rcases h with h | rfl
    · exact ih h
    · exact hdigit _ (Nat.mod_lt n (by decide))

end Text

namespace IdSupply

theorem nth_skip (ids : IdSupply) (m n : Nat) : (ids.skip m).nth n = ids.nth (m + n) := by
  simp [nth, skip, Nat.add_assoc]

theorem skip_skip (ids : IdSupply) (m n : Nat) : (ids.skip m).skip n = ids.skip (m + n) := by
  simp [skip, Nat.add_assoc]

theorem nth_sequential (start : UInt32) (n : Nat) :
    (sequential start).nth n = Text.hex 8 ((start.toNat + n) % Nat.pow 2 32) := by
  simp [nth, sequential]

/-- After a draw the supply goes on like one that begins at the next number, which is zero after the
greatest one. -/
theorem nth_advance_sequential (start : UInt32) (n : Nat) :
    (sequential start).advance.nth n = (sequential (start + 1)).nth n := by
  have hnumber : (start.toNat + (n + 1)) % Nat.pow 2 32 =
      ((start + 1).toNat + n) % Nat.pow 2 32 := by
    have hadd : (start + 1).toNat = (start.toNat + 1) % Nat.pow 2 32 := UInt32.toNat_add start 1
    rw [hadd, Nat.mod_add_mod, Nat.add_assoc, Nat.add_comm 1]
  rw [nth_advance, nth_sequential, nth_sequential, hnumber]

theorem isCellId_sequential (start : UInt32) (n : Nat) :
    isCellId ((sequential start).nth n) = true := by
  have hchars : ((sequential start).nth n).all isIdChar = true := by
    rw [nth_sequential, List.all_eq_true]
    exact fun c hc => Text.isIdChar_of_mem_hex hc
  have hlength : ((sequential start).nth n).length = 8 := by
    rw [nth_sequential, Text.length_hex]
  rw [isCellId, hchars, hlength]
  rfl

theorem nodup_sequential (start : UInt32) {n : Nat} (h : n ≤ Nat.pow 2 32) :
    ((List.range n).map (sequential start).nth).Nodup := by
  refine List.Nodup.map_on (fun i hi j hj hij => ?_) List.nodup_range
  rw [List.mem_range] at hi hj
  rw [nth_sequential, nth_sequential] at hij
  have hpow : Nat.pow 2 32 = 4294967296 := rfl
  have hbound : ∀ m : Nat, m % Nat.pow 2 32 < Nat.pow 16 8 :=
    fun m => Nat.mod_lt m (by decide)
  have hnumber := Text.eq_of_hex_eq (hbound _) (hbound _) hij
  rw [hpow] at h hnumber
  omega

end IdSupply

theorem Notebook.ids_ofSource (metadata : NotebookMetadata) (source : Text) (ids : IdSupply) :
    (ofSource metadata source ids).1.cells.map (·.id) =
      (List.range (ofSource metadata source ids).1.cells.length).map ids.nth := by
  rw [ofSource, ofCells, ScriptCell.assemble_eq]
  refine List.ext_getElem (by simp) fun i _ _ => ?_
  simp [NotebookCell.ofLines]

namespace Writer

theorem exists_render {notebook : Notebook} (h : notebook.validate = .ok ()) (writer : Writer) :
    ∃ text, writer.render notebook = .ok text := by
  induction writer with
  | structured => exact ⟨_, render_structured h⟩
  | plain => exact ⟨_, render_plain notebook⟩
  | fallback first second ih _ =>
    obtain ⟨text, htext⟩ := ih
    exact ⟨text, by rw [render, htext]⟩

end Writer

theorem FileTree.render_of_writeNotebook_error {tree : FileTree} {p : Path} {notebook : Notebook}
    {writer : Writer} {cause : ValidationError}
    (h : tree.writeNotebook p notebook writer = .error (.validation cause)) :
    writer.render notebook = .error (.validation cause) := by
  rw [writeNotebook] at h
  cases hr : writer.render notebook with
  | error failure => simpa [hr, bind, Except.bind] using h
  | ok text =>
    rw [hr] at h
    cases hw : tree.writeText p text <;> simp [hw, bind, Except.bind, Except.mapError] at h

namespace BatchRun

variable (plan : BatchPlan) (options : ConvertOptions)

def notebook? (run : BatchRun) (target : Path) : Option Notebook :=
  match run.tree.readText target with
  | .ok source => some (Notebook.ofSource options.metadata source run.ids).1
  | .error _ => none

theorem metadata_of_notebook? {run : BatchRun} {target : Path} {notebook : Notebook}
    (h : run.notebook? options target = some notebook) :
    notebook.metadata = options.metadata ∧ notebook.version = .current := by
  rw [notebook?] at h
  cases hr : run.tree.readText target with
  | error cause => simp [hr] at h
  | ok source =>
    simp only [hr, Option.some.injEq] at h
    rw [← h]
    exact ⟨rfl, rfl⟩

def turns (run : BatchRun) (position : Nat) : List Path → List (BatchRun × Path)
  | [] => []
  | target :: rest =>
    (run, target) ::
      turns (run.record target position plan.targets.length (run.turn plan options target))
        (position + 1) rest

def notebooks (run : BatchRun) (position : Nat) (targets : List Path) : List Notebook :=
  (run.turns plan options position targets).filterMap fun turn => turn.1.notebook? options turn.2

theorem notebooks_cons (run : BatchRun) (position : Nat) (target : Path) (rest : List Path) :
    run.notebooks plan options position (target :: rest) =
      (run.notebook? options target).toList ++
        (run.record target position plan.targets.length
          (run.turn plan options target)).notebooks plan options (position + 1) rest := by
  rw [notebooks, turns, List.filterMap_cons]
  cases run.notebook? options target <;> rfl

/-- A turn draws an identifier for each cell of its notebook, whatever comes of the turn. -/
theorem turn_ids_eq_skip (run : BatchRun) (target : Path) :
    (run.turn plan options target).2.1 =
      run.ids.skip ((run.notebook? options target).toList.flatMap Notebook.cells).length := by
  rw [BatchPlan.turn_ids run target run.ids, notebook?]
  cases run.tree.readText target <;> simp

theorem ids_notebook? (run : BatchRun) (target : Path) :
    let cells := (run.notebook? options target).toList.flatMap Notebook.cells
    cells.map (·.id) = (List.range cells.length).map run.ids.nth := by
  rw [notebook?]
  cases run.tree.readText target with
  | ok source => simpa using Notebook.ids_ofSource options.metadata source run.ids
  | error cause => rfl

/-- The cells of a batch get the identifiers in order and without a gap, and no others are drawn. -/
theorem ids_notebooks (run : BatchRun) (position : Nat) (targets : List Path) :
    let cells := (run.notebooks plan options position targets).flatMap Notebook.cells
    cells.map (·.id) = (List.range cells.length).map run.ids.nth ∧
      (run.convertFrom plan options position targets).ids = run.ids.skip cells.length := by
  induction targets generalizing run position with
  | nil => exact ⟨rfl, rfl⟩
  | cons target rest ih =>
    let own := (run.notebook? options target).toList.flatMap Notebook.cells
    let next := run.record target position plan.targets.length (run.turn plan options target)
    have hown : own.map (·.id) = (List.range own.length).map run.ids.nth :=
      run.ids_notebook? options target
    have hnext : next.ids = run.ids.skip own.length := by
      rw [BatchPlan.record_ids, turn_ids_eq_skip]
    obtain ⟨hlater, hleft⟩ := ih next (position + 1)
    have hnth : next.ids.nth = fun i => run.ids.nth (own.length + i) := by
      funext i
      rw [hnext, IdSupply.nth_skip]
    dsimp only
    rw [notebooks_cons, List.flatMap_append, List.map_append, List.length_append, List.range_add,
      List.map_append, List.map_map, convertFrom_cons, hleft, hlater, hown, hnth, hnext,
      IdSupply.skip_skip]
    exact ⟨rfl, rfl⟩

theorem mem_failed_record (run : BatchRun) (position : Nat) {input : Path} {total : Nat}
    {outcome : FileTree × IdSupply × Except Failure ConvertedFile} {file : FailedFile} :
    file ∈ (run.record input position total outcome).report.failed ↔
      file ∈ run.report.failed ∨ input = file.input ∧ outcome.2.2 = .error file.failure := by
  obtain ⟨tree, ids, failure | converted⟩ := outcome
  · obtain ⟨input', failure'⟩ := file
    simp [record, eq_comm]
  · simp [record]

theorem mem_failed_convertFrom (run : BatchRun) (position : Nat) {targets : List Path}
    {file : FailedFile} :
    file ∈ (run.convertFrom plan options position targets).report.failed ↔
      file ∈ run.report.failed ∨ ∃ turn ∈ run.turns plan options position targets,
        turn.2 = file.input ∧ (turn.1.turn plan options turn.2).2.2 = .error file.failure := by
  induction targets generalizing run position with
  | nil => simp [convertFrom, turns]
  | cons target rest ih =>
    rw [convertFrom_cons, ih, mem_failed_record, or_assoc, turns]
    simp

/-- A turn fails in validation only if the writer rejects its notebook. -/
theorem turn_error_validation {run : BatchRun} {target : Path} {cause : ValidationError}
    (h : (run.turn plan options target).2.2 = .error (.validation cause)) :
    ∃ notebook, run.notebook? options target = some notebook ∧
      options.writer.writer.render notebook = .error (.validation cause) := by
  rw [turn] at h
  cases hr : run.tree.readText target with
  | error cause => simp [FileTree.convertFile, hr] at h
  | ok source =>
    rcases hn : Notebook.ofSource options.metadata source run.ids with ⟨notebook, left⟩
    refine ⟨notebook, by simp [notebook?, hr, hn], ?_⟩
    rw [FileTree.convertFile_eq hr hn] at h
    rcases hm : run.tree.madeFor (plan.output target) with ⟨made, failed | u⟩
    · simp [hm] at h
    · cases hw : made.writeNotebook (plan.output target) notebook options.writer.writer with
      | error failure =>
        simp only [hm, hw, Except.error.injEq] at h
        exact FileTree.render_of_writeNotebook_error (h ▸ hw)
      | ok after => simp [hm, hw] at h

end BatchRun

namespace BatchPlan

variable (plan : BatchPlan) (options : ConvertOptions) (tree : FileTree)

/-- The notebooks of the targets that can be read, in the order of the targets. -/
def notebooks (ids : IdSupply) : List Notebook :=
  (plan.start tree ids).notebooks plan options 1 plan.targets

theorem ids_run_sequential (start : UInt32) :
    let cells := (plan.notebooks options tree (.sequential start)).flatMap Notebook.cells
    cells.map (·.id) = (List.range cells.length).map (IdSupply.sequential start).nth ∧
      (plan.run options tree (.sequential start)).ids =
        (IdSupply.sequential start).skip cells.length :=
  BatchRun.ids_notebooks plan options (plan.start tree (.sequential start)) 1 plan.targets

variable {plan options tree}

/-- Every notebook of a batch is valid, as long as the numbers do not begin again. -/
theorem validate_notebooks {start : UInt32} (hname : options.metadata.kernel.name ≠ [])
    (hdisplayName : options.metadata.kernel.displayName ≠ [])
    (hcount : ((plan.notebooks options tree (.sequential start)).flatMap Notebook.cells).length ≤
      Nat.pow 2 32) :
    ∀ notebook ∈ plan.notebooks options tree (.sequential start), notebook.validate = .ok () := by
  let notebooks := plan.notebooks options tree (.sequential start)
  obtain ⟨hids, -⟩ := plan.ids_run_sequential options tree start
  have hnodup : ((notebooks.flatMap Notebook.cells).map (·.id)).Nodup := by
    rw [hids]
    exact IdSupply.nodup_sequential start hcount
  have hwellFormed : ∀ id ∈ (notebooks.flatMap Notebook.cells).map (·.id), isCellId id = true := by
    rw [hids]
    intro id hid
    obtain ⟨i, -, rfl⟩ := List.mem_map.mp hid
    exact IdSupply.isCellId_sequential start i
  intro notebook hm
  obtain ⟨turn, -, hturn⟩ := List.mem_filterMap.mp hm
  obtain ⟨hmetadata, hversion⟩ := BatchRun.metadata_of_notebook? options hturn
  rw [List.map_flatMap, List.nodup_flatMap] at hnodup
  refine notebook.validate_eq_ok_iff.mpr ⟨hversion, hmetadata ▸ hname, hmetadata ▸ hdisplayName,
    fun cell hcell => hwellFormed _ ?_, hnodup.1 notebook hm⟩
  exact List.mem_map_of_mem (List.mem_flatMap.mpr ⟨notebook, hm, hcell⟩)

theorem failure_ne_validation {ids : IdSupply}
    (h : ∀ notebook ∈ plan.notebooks options tree ids, notebook.validate = .ok ()) :
    ∀ file ∈ (plan.run options tree ids).report.failed, ∀ cause,
      file.failure ≠ .validation cause := by
  intro file hfile cause hcause
  have hfailed : file ∈ ((plan.start tree ids).convertFrom plan options 1
      plan.targets).report.failed := hfile
  rw [BatchRun.mem_failed_convertFrom] at hfailed
  rcases hfailed with hstart | ⟨turn, hturn, -, herror⟩
  · cases hstart
  · rw [hcause] at herror
    obtain ⟨notebook, hnotebook, hrender⟩ := BatchRun.turn_error_validation plan options herror
    have hm : notebook ∈ plan.notebooks options tree ids :=
      List.mem_filterMap.mpr ⟨turn, hturn, hnotebook⟩
    obtain ⟨text, htext⟩ := Writer.exists_render (h notebook hm) options.writer.writer
    rw [htext] at hrender
    cases hrender

/-- Identifiers that count up never fail validation.  From whatever number they begin, the cells of
a batch get them without a gap, and as long as the numbers do not begin again, no identifier comes
twice, no target fails in validation, and the structured writer writes what the automatic choice
writes. -/
theorem sequential_ids_valid (plan : BatchPlan) (options : ConvertOptions) (tree : FileTree)
    (start : UInt32) (hname : options.metadata.kernel.name ≠ [])
    (hdisplayName : options.metadata.kernel.displayName ≠ []) :
    let notebooks := plan.notebooks options tree (.sequential start)
    let run := plan.run options tree (.sequential start)
    let cells := notebooks.flatMap Notebook.cells
    cells.map (·.id) =
        (List.range cells.length).map (fun i => Text.hex 8 ((start.toNat + i) % Nat.pow 2 32)) ∧
      run.ids = (IdSupply.sequential start).skip cells.length ∧
      (cells.length ≤ Nat.pow 2 32 →
        (cells.map (·.id)).Nodup ∧
        (∀ file ∈ run.report.failed, ∀ cause, file.failure ≠ .validation cause) ∧
        ∀ notebook ∈ notebooks, ∃ text, Writer.structured.render notebook = .ok text ∧
          Writer.auto.render notebook = .ok text) := by
  intro notebooks run cells
  obtain ⟨hids, hleft⟩ := plan.ids_run_sequential options tree start
  have hnth : (IdSupply.sequential start).nth =
      fun i => Text.hex 8 ((start.toNat + i) % Nat.pow 2 32) :=
    funext (IdSupply.nth_sequential start)
  refine ⟨hnth ▸ hids, hleft, fun hcount => ?_⟩
  have hvalid := validate_notebooks hname hdisplayName hcount
  have hnodup : (cells.map (·.id)).Nodup := by
    rw [hids]
    exact IdSupply.nodup_sequential start hcount
  refine ⟨hnodup, failure_ne_validation hvalid, fun notebook hm => ?_⟩
  have hstructured := Writer.render_structured (hvalid notebook hm)
  exact ⟨_, hstructured, by rw [Writer.auto, Writer.render, hstructured]⟩

/-- The numbers begin again between the two scripts that can be read. -/
theorem sequential_ids_valid_mixed :
    let options := Settings.initial.toOptions
    let notebooks := mixedPlan.notebooks options mixedTree (.sequential 0xFFFFFFFF)
    options.metadata.kernel.name ≠ [] ∧ options.metadata.kernel.displayName ≠ [] ∧
      (notebooks.flatMap Notebook.cells).map (·.id) = ["ffffffff".toList, "00000000".toList] ∧
      ∀ notebook ∈ notebooks, ∃ text, Writer.structured.render notebook = .ok text ∧
        Writer.auto.render notebook = .ok text := by
  intro options notebooks
  have hname : options.metadata.kernel.name ≠ [] := by decide
  have hdisplayName : options.metadata.kernel.displayName ≠ [] := by decide
  have hids : (notebooks.flatMap Notebook.cells).map (·.id) =
      ["ffffffff".toList, "00000000".toList] := by decide +kernel
  have hcount : (notebooks.flatMap Notebook.cells).length ≤ Nat.pow 2 32 := by
    have hlength := congrArg List.length hids
    rw [List.length_map] at hlength
    rw [hlength]
    decide
  obtain ⟨-, -, hvalid⟩ :=
    sequential_ids_valid mixedPlan options mixedTree 0xFFFFFFFF hname hdisplayName
  exact ⟨hname, hdisplayName, hids, (hvalid hcount).2.2⟩

end BatchPlan

end ScriptNotebook
