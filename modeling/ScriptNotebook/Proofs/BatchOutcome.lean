import ScriptNotebook.Proofs.Assembly
import ScriptNotebook.Proofs.NewDirectories

/-!
The tree after a batch in terms of its report, for trees without links and plans whose outputs are
apart.  The notebook of a converted script is that of the script's first text, and whatever is no
such notebook is as before.
-/
namespace ScriptNotebook

theorem Notebook.ofSource_snd (metadata : NotebookMetadata) (source : Text) (ids ids' : IdSupply) :
    (Notebook.ofSource metadata source ids).2 =
      ids.skip (Notebook.ofSource metadata source ids').1.cells.length := by
  simp [ofSource, ofCells, ScriptCell.assemble_eq]

namespace FileTree

variable {tree : FileTree} {p : Path}

theorem readBytes_eq_ok {content : ByteArray} :
    tree.readBytes p = .ok content ↔
      ∃ location, tree.locate .look p = .ok location ∧
        tree.find? location = some (.file content) := by
  simp only [readBytes, lookup, bind, Except.bind]
  cases tree.locate .look p with
  | error cause => simp
  | ok location =>
    cases hf : tree.find? location with
    | none => simp [hf]
    | some entry => cases entry <;> simp [hf]

theorem readText_eq_ok {t : Text} :
    tree.readText p = .ok t ↔
      ∃ content, tree.readBytes p = .ok content ∧ text? content = some t := by
  simp only [readText, bind, Except.bind]
  cases tree.readBytes p with
  | error cause => simp
  | ok content => cases h : text? content <;> simp [h]

end FileTree

namespace BatchPlan

variable (plan : BatchPlan) (options : ConvertOptions) (tree : FileTree) (ids : IdSupply)

/-- The outputs are different files, none of them a target. -/
structure OutputsApart (here : Location) : Prop where
  outputs : plan.targets.Pairwise fun s t =>
    (plan.output s).landing here ≠ (plan.output t).landing here
  targets : ∀ s ∈ plan.targets, ∀ t ∈ plan.targets,
    (plan.output s).landing here ≠ t.landing here

def reading (target : Path) : Except SystemError Text :=
  (plan.after options tree ids (plan.targets.takeWhile (· ≠ target))).tree.readText target

/-- The number of identifiers that some targets take, one for each cell of those that can be
read. -/
def drawn (front : List Path) : Nat :=
  let cells := front.flatMap fun target =>
    match plan.reading options tree ids target with
    | .ok source => (Notebook.ofSource options.metadata source ids).1.cells
    | .error _ => []
  cells.length

def notebookAfter (front : List Path) (source : Text) : Notebook :=
  (Notebook.ofSource options.metadata source
    (ids.skip (plan.drawn options tree ids front))).1

/-- The tree after a batch is what the report says. -/
structure AsReported : Prop where
  /-- A target that leads somewhere from the start reads as it did at the start. -/
  reading : ∀ target ∈ plan.targets, tree.lookup .look target ≠ .error .noEntry →
    plan.reading options tree ids target = tree.readText target
  /-- Any target that can be read reads as the file that was there at the start. -/
  original : ∀ target ∈ plan.targets, ∀ source,
    plan.reading options tree ids target = .ok source →
    ∃ content, tree.find? (target.landing tree.here) = some (.file content) ∧
      FileTree.text? content = some source
  /-- A converted file has its notebook, as rendered, and the report counts its cells. -/
  converted : ∀ file ∈ (plan.run options tree ids).report.converted,
    ∃ front rest source text, plan.targets = front ++ file.input :: rest ∧
      file.output = plan.output file.input ∧
      plan.reading options tree ids file.input = .ok source ∧
      options.writer.writer.render (plan.notebookAfter options tree ids front source) =
        .ok text ∧
      (plan.run options tree ids).tree.readBytes file.output = .ok (String.ofList text).toUTF8 ∧
      file.codeCells = (plan.notebookAfter options tree ids front source).count .code ∧
      file.markdownCells = (plan.notebookAfter options tree ids front source).count .markdown
  /-- A file that is no such notebook is unchanged. -/
  kept : ∀ location content, tree.find? location = some (.file content) →
    (∀ file ∈ (plan.run options tree ids).report.converted,
      location ≠ file.output.landing tree.here) →
    (plan.run options tree ids).tree.find? location = some (.file content)
  /-- Only such notebooks have come as files. -/
  files : ∀ location content,
    (plan.run options tree ids).tree.find? location = some (.file content) →
    tree.find? location = some (.file content) ∨
      ∃ file ∈ (plan.run options tree ids).report.converted,
        location = file.output.landing tree.here
  /-- Only what is above outputs has come as directories. -/
  directories : ∀ location, (plan.run options tree ids).tree.find? location = some .directory →
    tree.find? location = some .directory ∨
      ∃ target ∈ plan.targets, ∃ p, (plan.output target).Below p ∧
        location = p.landing tree.here
  /-- A turn that fails changes no file. -/
  failed : ∀ front target rest failure, plan.targets = front ++ target :: rest →
    ((plan.after options tree ids front).turn plan options target).2.2 = .error failure →
    (plan.after options tree ids front).tree.SameFiles
      (plan.after options tree ids (front ++ [target])).tree

theorem after_concat (front : List Path) (target : Path) :
    plan.after options tree ids (front ++ [target]) =
      (plan.after options tree ids front).record target (1 + front.length) plan.targets.length
        ((plan.after options tree ids front).turn plan options target) := by
  rw [after, BatchRun.convertFrom_append]
  rfl

theorem after_concat_tree (front : List Path) (target : Path) :
    (plan.after options tree ids (front ++ [target])).tree =
      ((plan.after options tree ids front).turn plan options target).1 := by
  rw [after_concat, BatchRun.record_tree]

variable {tree}

theorem after_wellFormed (hw : tree.WellFormed) (front : List Path) :
    (plan.after options tree ids front).tree.WellFormed := by
  have hstart : (plan.start tree ids).tree.WellFormed := hw
  exact (BatchRun.convertFrom_updates plan options hstart 1 front).1

theorem after_updates_leadsTo (hw : tree.WellFormed) (front : List Path) :
    FileTree.Updates (fun location => ∃ target ∈ front,
        (plan.after options tree ids front).tree.LeadsTo (plan.output target) location)
      tree (plan.after options tree ids front).tree := by
  have hstart : (plan.start tree ids).tree.WellFormed := hw
  exact (BatchRun.convertFrom_updates plan options hstart 1 front).2

theorem after_linkFree (hw : tree.WellFormed) (hf : tree.LinkFree) (front : List Path) :
    (plan.after options tree ids front).tree.LinkFree :=
  (plan.after_updates_leadsTo options ids hw front).linkFree hf

theorem after_updates (hw : tree.WellFormed) (hf : tree.LinkFree) (front : List Path) :
    FileTree.Updates
      (fun location => ∃ target ∈ front, location = (plan.output target).landing tree.here)
      tree (plan.after options tree ids front).tree := by
  have hu := plan.after_updates_leadsTo options ids hw front
  refine hu.mono ?_
  rintro location ⟨target, ht, hl⟩
  refine ⟨target, ht, ?_⟩
  rw [FileTree.locate_eq_landing (plan.after_linkFree options ids hw hf front) hl, hu.here]

variable {plan options ids}

theorem reading_of_lookup (hw : tree.WellFormed) (hf : tree.LinkFree)
    (ha : plan.OutputsApart tree.here) {target : Path} (ht : target ∈ plan.targets)
    (hl : tree.lookup .look target ≠ .error .noEntry) :
    plan.reading options tree ids target = tree.readText target := by
  have hu := plan.after_updates options ids hw hf
    (plan.targets.takeWhile (· ≠ target))
  have hb := hu.readBytes_eq hl fun location hloc => by
    rintro ⟨s, hs, rfl⟩
    exact ha.targets s ((List.takeWhile_prefix _).subset hs) target ht
      (FileTree.locate_eq_landing hf hloc)
  rw [reading, FileTree.readText, hb]
  rfl

theorem original_of_reading (hw : tree.WellFormed) (hf : tree.LinkFree)
    (ha : plan.OutputsApart tree.here) {target : Path} (ht : target ∈ plan.targets)
    {source : Text} (hr : plan.reading options tree ids target = .ok source) :
    ∃ content, tree.find? (target.landing tree.here) = some (.file content) ∧
      FileTree.text? content = some source := by
  have hu := plan.after_updates options ids hw hf
    (plan.targets.takeWhile (· ≠ target))
  have hfree := plan.after_linkFree options ids hw hf
    (plan.targets.takeWhile (· ≠ target))
  obtain ⟨content, hb, htext⟩ := FileTree.readText_eq_ok.mp hr
  obtain ⟨location, hloc, hfile⟩ := FileTree.readBytes_eq_ok.mp hb
  obtain rfl : location = target.landing tree.here := by
    rw [FileTree.locate_eq_landing hfree hloc, hu.here]
  refine ⟨content, (hu.file_of_after hfile).resolve_left ?_, htext⟩
  rintro ⟨s, hs, hl⟩
  exact ha.targets s ((List.takeWhile_prefix _).subset hs) target ht hl.symm

/-- With outputs apart, a target comes once, and what is in front of it is what comes before the
first target that equals it. -/
theorem OutputsApart.takeWhile_eq {here : Location} (ha : plan.OutputsApart here)
    {front rest : List Path} {target : Path} (hs : plan.targets = front ++ target :: rest) :
    plan.targets.takeWhile (· ≠ target) = front := by
  have hpair := ha.outputs
  rw [hs] at hpair ⊢
  have hne : ∀ s ∈ front, decide (s ≠ target) = true := by
    intro s hm
    have hl := (List.pairwise_append.mp hpair).2.2 s hm target List.mem_cons_self
    exact decide_eq_true fun he => hl (by rw [he])
  rw [List.takeWhile_append_of_pos hne, List.takeWhile_cons_of_neg (by simp), List.append_nil]

theorem turn_ids (run : BatchRun) (target : Path) (ids : IdSupply) :
    (run.turn plan options target).2.1 =
      match run.tree.readText target with
      | .ok source =>
        run.ids.skip (Notebook.ofSource options.metadata source ids).1.cells.length
      | .error _ => run.ids := by
  rw [BatchRun.turn]
  rcases FileTree.convertFile_cases run.tree run.ids target (plan.output target)
      options.metadata options.writer.writer with
    ⟨cause, hr, hc⟩ | ⟨source, notebook, left, hr, hn, ⟨failure, hc⟩ | ⟨text, after, -, -, hc⟩⟩
  · rw [hr, hc]
  all_goals
    have hleft := Notebook.ofSource_snd options.metadata source run.ids ids
    rw [hn] at hleft
    rw [hr, hc]
    exact hleft

@[simp] theorem record_ids (run : BatchRun) (input : Path) (position total : Nat)
    (outcome : FileTree × IdSupply × Except Failure ConvertedFile) :
    (run.record input position total outcome).ids = outcome.2.1 := by
  obtain ⟨tree, ids, result⟩ := outcome
  cases result <;> rfl

theorem after_ids {here : Location} (ha : plan.OutputsApart here) {front rest : List Path}
    (hs : plan.targets = front ++ rest) :
    (plan.after options tree ids front).ids = ids.skip (plan.drawn options tree ids front) := by
  induction front using List.reverseRecOn generalizing rest with
  | nil => rfl
  | append_singleton front target ih =>
    rw [List.append_assoc] at hs
    have hreading : plan.reading options tree ids target =
        (plan.after options tree ids front).tree.readText target := by
      rw [reading, ha.takeWhile_eq hs]
    rw [after_concat, record_ids, turn_ids _ _ ids, ih hs, drawn, drawn, List.flatMap_append,
      List.length_append, List.flatMap_singleton, hreading]
    cases (plan.after options tree ids front).tree.readText target with
    | ok source => simp [IdSupply.skip, Nat.add_assoc]
    | error cause => simp

theorem run_linkFree_of_linkFree (hw : tree.WellFormed) (hf : tree.LinkFree) :
    (plan.run options tree ids).tree.LinkFree :=
  plan.after_linkFree options ids hw hf plan.targets

theorem run_updates_converted (hw : tree.WellFormed) (hf : tree.LinkFree) :
    FileTree.Updates (fun location => ∃ file ∈ (plan.run options tree ids).report.converted,
      location = file.output.landing tree.here) tree (plan.run options tree ids).tree := by
  refine BatchRun.convertFrom_of_turns plan options (plan.start tree ids) 1
    FileTree.Updates.refl FileTree.Updates.trans ?_
  intro front input rest hs
  have hwell := plan.after_wellFormed options ids hw front
  have hu := plan.after_updates options ids hw hf front
  cases hr : ((plan.after options tree ids front).turn plan options input).2.2 with
  | error failure =>
    exact (BatchRun.turn_error_updates plan options _ hr).mono fun _ hn => hn.elim
  | ok file =>
    obtain ⟨_, _, _, _, after, -, -, -, -, hturn, hfile⟩ := BatchRun.turn_ok plan options _ hr
    obtain ⟨-, hstep, -⟩ := FileTree.convertFile_updates hwell hturn
    have hm : file ∈ (plan.run options tree ids).report.converted :=
      (plan.mem_converted_iff options tree ids).mpr ⟨front, input, rest, hs, hr⟩
    have hafter : ((plan.after options tree ids front).turn plan options input).1 = after :=
      congrArg Prod.fst hturn
    refine hafter ▸ hstep.mono fun location hl => ⟨file, hm, ?_⟩
    have hfree : after.LinkFree := hstep.linkFree (hu.linkFree hf)
    rw [FileTree.locate_eq_landing hfree hl, hstep.here, hu.here, hfile]

theorem run_newDirectories (hw : tree.WellFormed) (hf : tree.LinkFree) :
    FileTree.NewDirectories (fun location => ∃ target ∈ plan.targets, ∃ p,
        (plan.output target).Below p ∧ location = p.landing tree.here)
      tree (plan.run options tree ids).tree := by
  refine BatchRun.convertFrom_of_turns plan options (plan.start tree ids) 1
    FileTree.NewDirectories.refl FileTree.NewDirectories.trans ?_
  intro front input rest hs
  have hu := plan.after_updates options ids hw hf front
  refine (FileTree.convertFile_newDirectories (hu.linkFree hf) _ input (plan.output input) _
    _).mono ?_
  rintro location ⟨p, hp, hl⟩
  exact ⟨input, by simp [hs], p, hp, by rw [hl, hu.here]⟩

/-- A notebook that has been written stays as it is, since all later outputs are elsewhere. -/
theorem run_readBytes_output (hw : tree.WellFormed) (hf : tree.LinkFree)
    (ha : plan.OutputsApart tree.here) {front rest : List Path} {target : Path}
    (hs : plan.targets = front ++ target :: rest) {content : ByteArray}
    (hr : (plan.after options tree ids (front ++ [target])).tree.readBytes (plan.output target) =
      .ok content) :
    (plan.run options tree ids).tree.readBytes (plan.output target) = .ok content := by
  have hs' : plan.targets = (front ++ [target]) ++ rest := by simp [hs]
  have hpair := ha.outputs
  rw [hs] at hpair
  have hlater := (List.pairwise_cons.mp (List.pairwise_append.mp hpair).2.1).1
  rw [run_readBytes_eq plan options hw ids hs' ?_ ?_]
  · exact hr
  · intro hn
    rw [after] at hr
    simp [FileTree.readBytes, hn, bind, Except.bind] at hr
  · intro s hm hsame
    have hl := hsame.landing_eq (run_linkFree_of_linkFree hw hf)
    rw [(run_updates plan options hw ids).here] at hl
    exact hlater s hm hl.symm

theorem converted_spec (hw : tree.WellFormed) (hf : tree.LinkFree)
    (ha : plan.OutputsApart tree.here) {file : ConvertedFile}
    (h : file ∈ (plan.run options tree ids).report.converted) :
    ∃ front rest source text, plan.targets = front ++ file.input :: rest ∧
      file.output = plan.output file.input ∧
      plan.reading options tree ids file.input = .ok source ∧
      options.writer.writer.render (plan.notebookAfter options tree ids front source) =
        .ok text ∧
      (plan.run options tree ids).tree.readBytes file.output = .ok (String.ofList text).toUTF8 ∧
      file.codeCells = (plan.notebookAfter options tree ids front source).count .code ∧
      file.markdownCells =
        (plan.notebookAfter options tree ids front source).count .markdown := by
  obtain ⟨front, input, rest, hs, hr⟩ := (plan.mem_converted_iff options tree ids).mp h
  obtain ⟨source, notebook, left, text, after, hread, hn, hrender, hwrite, hturn, rfl⟩ :=
    BatchRun.turn_ok plan options _ hr
  have hnotebook : plan.notebookAfter options tree ids front source = notebook := by
    rw [notebookAfter, ← after_ids ha hs, hn]
  have hreading : plan.reading options tree ids input = .ok source := by
    rw [reading, ha.takeWhile_eq hs, hread]
  have hwell := plan.after_wellFormed options ids hw front
  have hcontent := (FileTree.writeBytes_updates (hwell.madeFor _) hwrite).2
  have hbytes : (plan.run options tree ids).tree.readBytes (plan.output input) =
      .ok (String.ofList text).toUTF8 := by
    refine run_readBytes_output hw hf ha hs ?_
    rw [after_concat_tree, hturn, FileTree.readBytes, hcontent]
    rfl
  rw [← hnotebook] at hrender ⊢
  exact ⟨front, rest, source, text, hs, rfl, hreading, hrender, hbytes, rfl, rfl⟩

/-- After a batch the tree is what the report says, whatever the writer, the metadata and the
identifiers. -/
theorem run_asReported (hw : tree.WellFormed) (hf : tree.LinkFree)
    (ha : plan.OutputsApart tree.here) (options : ConvertOptions) (ids : IdSupply) :
    plan.AsReported options tree ids where
  reading _ ht hl := reading_of_lookup hw hf ha ht hl
  original _ ht _ hr := original_of_reading hw hf ha ht hr
  converted _ hm := converted_spec hw hf ha hm
  kept location content hc hn := by
    obtain ⟨content', hc', hsame⟩ := (run_updates_converted hw hf).file location content hc
    rw [hc', hsame ?_]
    rintro ⟨file, hm, hl⟩
    exact hn file hm hl
  files _ _ hc := ((run_updates_converted hw hf).file_of_after hc).symm
  directories := run_newDirectories hw hf
  failed front target rest failure _ hr := by
    rw [after_concat_tree]
    exact (BatchRun.turn_error_updates plan options _ hr).sameFiles

/-- Three scripts, the second of them no text. -/
def mixedTree : FileTree where
  entries := [(["a.py".toList], .ofText "x = 1".toList), (["b.py".toList], .file ⟨#[0xFF]⟩),
    (["sub".toList], .directory),
    (["c.py".toList, "sub".toList], .ofText "# %% [markdown]\nc".toList)]
  here := []

def mixedPlan : BatchPlan where
  root := .ofString "."
  targets := [.ofString "./a.py", .ofString "./b.py", .ofString "./sub/c.py"]
  outputDir := .ofString "./out"

theorem mixedTree_asReported :
    mixedPlan.AsReported Settings.initial.toOptions mixedTree (.sequential 0) ∧
      (mixedPlan.run Settings.initial.toOptions mixedTree (.sequential 0)).report.converted =
        [⟨.ofString "./a.py", .ofString "./out/a.ipynb", 1, 0⟩,
          ⟨.ofString "./sub/c.py", .ofString "./out/sub/c.ipynb", 0, 1⟩] := by
  have hw : mixedTree.WellFormed := by decide +kernel
  have hf : mixedTree.LinkFree :=
    FileTree.linkFree_of_entries (by simp [mixedTree, FileTree.Entry.ofText])
  have ha : mixedPlan.OutputsApart mixedTree.here := ⟨by decide +kernel, by decide +kernel⟩
  exact ⟨run_asReported hw hf ha _ _, by decide +kernel⟩

end BatchPlan

end ScriptNotebook
