import Mathlib.Data.List.Find
import Mathlib.Data.List.Forall2
import Mathlib.Data.List.Nodup
import ScriptNotebook.Notebook.Reader
import ScriptNotebook.Proofs.JsonReadBack

/-!
Forms that differ in nothing but the order of members and the way strings and numbers are written.
They are worth the same, and what a record gives of its fields is alike again.
-/
namespace ScriptNotebook

section

variable {α β γ : Type} {R : α → α → Prop} {S : β → β → Prop} {f : α → Option β}

theorem bind_eq_of_rel {g : α → Option β} {x y : Option α} (h : Option.Rel R x y)
    (hfg : ∀ a b, R a b → f a = g b) : x.bind f = y.bind g := by
  cases h with
  | none => rfl
  | some h => exact hfg _ _ h

theorem rel_bind {g : α → Option β} {x y : Option α} (h : Option.Rel R x y)
    (hfg : ∀ a b, R a b → Option.Rel S (f a) (g b)) : Option.Rel S (x.bind f) (y.bind g) := by
  cases h with
  | none => exact .none
  | some h => exact hfg _ _ h

theorem rel_bind_self {f g : γ → Option β} (x : Option γ) (hfg : ∀ c, Option.Rel S (f c) (g c)) :
    Option.Rel S (x.bind f) (x.bind g) := by
  cases x with
  | none => exact .none
  | some c => exact hfg c

theorem rel_comp {R' : α → α → Prop} {x y z : Option α} (h : Option.Rel R x y)
    (h' : Option.Rel R' y z) : Option.Rel (fun a c => ∃ b, R a b ∧ R' b c) x z := by
  cases h with
  | none =>
    cases h'
    exact .none
  | some h =>
    cases h' with
    | some h' => exact .some ⟨_, h, h'⟩

theorem mapM_eq_of_forall₂ {l l' : List α} (h : List.Forall₂ R l l')
    (hf : ∀ a b, R a b → f a = f b) : l.mapM f = l'.mapM f := by
  induction h with
  | nil => rfl
  | cons hab h ih => rw [List.mapM_cons, List.mapM_cons, hf _ _ hab, ih]

theorem exists_mapM_of_perm {l l' : List α} (h : l.Perm l') {r : List β}
    (hr : l.mapM f = some r) : ∃ r', l'.mapM f = some r' ∧ r.Perm r' := by
  induction h generalizing r with
  | nil => exact ⟨r, hr, .refl r⟩
  | cons a h ih =>
    rw [List.mapM_cons] at hr ⊢
    obtain ⟨b, hb, hr⟩ := Option.bind_eq_some_iff.mp hr
    obtain ⟨s, hs, hr⟩ := Option.bind_eq_some_iff.mp hr
    obtain ⟨s', hs', hp⟩ := ih hs
    obtain rfl := Option.some.inj hr
    exact ⟨b :: s', by rw [hb, hs']; rfl, hp.cons b⟩
  | swap a b l =>
    rw [List.mapM_cons, List.mapM_cons] at hr ⊢
    obtain ⟨c, hc, hr⟩ := Option.bind_eq_some_iff.mp hr
    obtain ⟨t, ht, hr⟩ := Option.bind_eq_some_iff.mp hr
    obtain ⟨d, hd, ht⟩ := Option.bind_eq_some_iff.mp ht
    obtain ⟨s, hs, ht⟩ := Option.bind_eq_some_iff.mp ht
    obtain rfl := Option.some.inj ht
    obtain rfl := Option.some.inj hr
    exact ⟨d :: c :: s, by rw [hd, hc, hs]; rfl, .swap d c s⟩
  | trans h h' ih ih' =>
    obtain ⟨s, hs, hp⟩ := ih hr
    obtain ⟨s', hs', hp'⟩ := ih' hs
    exact ⟨s', hs', hp.trans hp'⟩

theorem mapM_perm {l l' : List α} (h : l.Perm l') :
    Option.Rel List.Perm (l.mapM f) (l'.mapM f) := by
  cases hr : l.mapM f with
  | some r =>
    obtain ⟨r', hr', hp⟩ := exists_mapM_of_perm h hr
    rw [hr']
    exact .some hp
  | none =>
    cases hr' : l'.mapM f with
    | none => exact .none
    | some r' =>
      obtain ⟨s, hs, -⟩ := exists_mapM_of_perm h.symm hr'
      cases hr.symm.trans hs

theorem map_eq_of_mapM {p : α → γ} {q : β → γ} (h : ∀ a b, f a = some b → q b = p a)
    {l : List α} {r : List β} (hr : l.mapM f = some r) : r.map q = l.map p := by
  induction l generalizing r with
  | nil =>
    obtain rfl := Option.some.inj hr
    rfl
  | cons a l ih =>
    rw [List.mapM_cons] at hr
    obtain ⟨b, hb, hr⟩ := Option.bind_eq_some_iff.mp hr
    obtain ⟨s, hs, hr⟩ := Option.bind_eq_some_iff.mp hr
    obtain rfl := Option.some.inj hr
    rw [List.map_cons, List.map_cons, h a b hb, ih hs]

end

namespace Json

theorem insertMember_perm {key : Text} (value : Json) {members : List (Text × Json)}
    (h : ∀ m ∈ members, m.1 ≠ key) :
    (insertMember key value members).Perm ((key, value) :: members) := by
  induction members with
  | nil => exact .refl _
  | cons m members ih =>
    obtain ⟨hm, hrest⟩ := List.forall_mem_cons.mp h
    rw [insertMember, if_neg (Ne.symm hm)]
    split
    · exact .refl _
    · exact ((ih hrest).cons m).trans (.swap _ _ _)

theorem sortMembers_perm {members : List (Text × Json)} (h : (members.map (·.1)).Nodup) :
    (sortMembers members).Perm members := by
  induction members using List.reverseRecOn with
  | nil => exact .refl _
  | append_singleton members m ih =>
    rw [List.map_append, List.nodup_append] at h
    obtain ⟨hnodup, -, hne⟩ := h
    have hm : ∀ n ∈ sortMembers members, n.1 ≠ m.1 := fun n hn =>
      hne n.1 (List.mem_map_of_mem (mem_sortMembers hn)) m.1 (by simp)
    rw [sortMembers, List.foldl_append]
    exact (insertMember_perm m.2 hm).trans
      (((ih hnodup).cons m).trans (List.perm_append_singleton m members).symm)

/-- The order in which members with different keys are put down does not matter. -/
theorem ofMembers_eq_of_perm {members members' : List (Text × Json)} (hp : members.Perm members')
    (h : (members.map (·.1)).Nodup) : ofMembers members = ofMembers members' := by
  have h' : (members'.map (·.1)).Nodup := (hp.map (·.1)).nodup_iff.mp h
  have hsorted : (sortMembers members).Perm (sortMembers members') :=
    ((sortMembers_perm h).trans hp).trans (sortMembers_perm h').symm
  refine congrArg object (List.Perm.eq_of_pairwise (fun m n _ _ hmn hnm => ?_)
    (increasing_sortMembers members) (increasing_sortMembers members') hsorted)
  have hself := Text.before_trans hmn hnm
  simp at hself

namespace Form

mutual

/-- What two forms say is the same but for the order of members, of which no two have one key.
Strings may be written with other escapes and numbers with other digits; an integer and a double
are never alike. -/
inductive Alike : Form → Form → Prop
  | null : Alike null null
  | bool (value : Bool) : Alike (bool value) (bool value)
  | number {m n : Numeral} (h : m.json? = n.json?) : Alike (number m) (number n)
  | string {s t : List Piece} (h : Piece.text? s = Piece.text? t) : Alike (string s) (string t)
  | array {fs gs : List Form} (h : List.Forall₂ Alike fs gs) : Alike (array fs) (array gs)
  | object {ms ms' ns : List (List Piece × Form)}
      (hkeys : (ms.map fun m => Piece.text? m.1).Nodup) (h : AlikeMembers ms ms')
      (hp : ms'.Perm ns) : Alike (object ms) (object ns)

inductive AlikeMembers : List (List Piece × Form) → List (List Piece × Form) → Prop
  | nil : AlikeMembers [] []
  | cons {k l : List Piece} {f g : Form} {ms ns : List (List Piece × Form)}
      (hk : Piece.text? k = Piece.text? l) (hv : Alike f g) (h : AlikeMembers ms ns) :
      AlikeMembers ((k, f) :: ms) ((l, g) :: ns)

end

theorem AlikeMembers.keys_eq {ms ns : List (List Piece × Form)} (h : AlikeMembers ms ns) :
    (ms.map fun m => Piece.text? m.1) = ns.map fun n => Piece.text? n.1 := by
  induction ms generalizing ns with
  | nil =>
    cases h
    rfl
  | cons m ms ih =>
    cases h with
    | cons hk hv h => rw [List.map_cons, List.map_cons, hk, ih h]

theorem jsonMembers?_eq_mapM (room : Nat) (ms : List (List Piece × Form)) :
    jsonMembers? room ms =
      ms.mapM fun m => do return (← Piece.text? m.1, ← m.2.json? room) := by
  induction ms with
  | nil => rfl
  | cons m ms ih =>
    rw [jsonMembers?, ih, List.mapM_cons]
    cases Piece.text? m.1 with
    | none => rfl
    | some key => cases m.2.json? room <;> rfl

theorem keys_of_jsonMembers? {room : Nat} {ms : List (List Piece × Form)}
    {vs : List (Text × Json)} (h : jsonMembers? room ms = some vs) :
    vs.map (some ∘ Prod.fst) = ms.map fun m => Piece.text? m.1 := by
  rw [jsonMembers?_eq_mapM] at h
  refine map_eq_of_mapM (fun m v hv => ?_) h
  obtain ⟨key, hkey, hv⟩ := Option.bind_eq_some_iff.mp hv
  obtain ⟨w, -, hv⟩ := Option.bind_eq_some_iff.mp hv
  obtain rfl := Option.some.inj hv
  exact hkey.symm

theorem jsonMembers?_perm {room : Nat} {ms ns : List (List Piece × Form)} (hp : ms.Perm ns)
    (hkeys : (ms.map fun m => Piece.text? m.1).Nodup) :
    (jsonMembers? room ms).map ofMembers = (jsonMembers? room ns).map ofMembers := by
  have hrel : Option.Rel List.Perm (jsonMembers? room ms) (jsonMembers? room ns) := by
    rw [jsonMembers?_eq_mapM, jsonMembers?_eq_mapM]
    exact mapM_perm hp
  generalize hvs : jsonMembers? room ms = vs at hrel ⊢
  generalize jsonMembers? room ns = ws at hrel ⊢
  cases hrel with
  | none => rfl
  | some hperm =>
    rw [← keys_of_jsonMembers? hvs, ← List.map_map] at hkeys
    rw [Option.map_some, Option.map_some, ofMembers_eq_of_perm hperm (hkeys.of_map some)]

mutual

/-- Alike forms are worth the same, with any room. -/
theorem Alike.json?_eq : (f : Form) → {g : Form} → Alike f g → (room : Nat) →
    f.json? room = g.json? room
  | .null, _, h, room => by
    cases h
    rfl
  | .bool b, _, h, room => by
    cases h
    rfl
  | .number n, _, h, room => by
    cases h with
    | number h => exact h
  | .string s, _, h, room => by
    cases h with
    | string h => exact congrArg (Option.map Json.string) h
  | .array items, _, h, room => by
    cases h with
    | array h => rw [json?, json?, Alike.jsonItems?_eq items h]
  | .object members, _, h, room => by
    cases h with
    | object hkeys h hp =>
      rw [h.keys_eq] at hkeys
      rw [json?, json?, AlikeMembers.jsonMembers?_eq members h, jsonMembers?_perm hp hkeys]

theorem Alike.jsonItems?_eq : (fs : List Form) → {gs : List Form} → List.Forall₂ Alike fs gs →
    (room : Nat) → jsonItems? room fs = jsonItems? room gs
  | [], _, h, room => by
    cases h
    rfl
  | f :: fs, _, h, room => by
    cases h with
    | cons h hs => rw [jsonItems?, jsonItems?, Alike.json?_eq f h, Alike.jsonItems?_eq fs hs]

theorem AlikeMembers.jsonMembers?_eq : (ms : List (List Piece × Form)) →
    {ns : List (List Piece × Form)} → AlikeMembers ms ns → (room : Nat) →
    jsonMembers? room ms = jsonMembers? room ns
  | [], _, h, room => by
    cases h
    rfl
  | (k, f) :: ms, _, h, room => by
    cases h with
    | cons hk hv h =>
      rw [jsonMembers?, jsonMembers?, hk, Alike.json?_eq f hv, AlikeMembers.jsonMembers?_eq ms h]

end

abbrev AlikeInTurn : List (Text × Form) → List (Text × Form) → Prop :=
  List.Forall₂ fun m n => m.1 = n.1 ∧ Alike m.2 n.2

/-- The same names with alike values, in any order. -/
def AlikeNamed (ms ns : List (Text × Form)) : Prop := ∃ ms', AlikeInTurn ms ms' ∧ ms'.Perm ns

theorem AlikeInTurn.keys_eq {ms ns : List (Text × Form)} (h : AlikeInTurn ms ns) :
    ms.map (·.1) = ns.map (·.1) := by
  induction h with
  | nil => rfl
  | cons hmn h ih => rw [List.map_cons, List.map_cons, hmn.1, ih]

theorem AlikeInTurn.given? {ms ns : List (Text × Form)} (h : AlikeInTurn ms ns) (name : String) :
    Option.Rel Alike (given? ms name) (given? ns name) := by
  induction h with
  | nil => exact .none
  | @cons m n ms ns hmn h ih =>
    rw [ScriptNotebook.given?, ScriptNotebook.given?, List.find?_cons, List.find?_cons, ← hmn.1]
    cases m.1 == name.toList with
    | true => exact .some hmn.2
    | false => exact ih

theorem AlikeNamed.filter {ms ns : List (Text × Form)} (h : AlikeNamed ms ns)
    (asked : Text → Bool) :
    AlikeNamed (ms.filter fun m => asked m.1) (ns.filter fun n => asked n.1) := by
  obtain ⟨ms', hturn, hp⟩ := h
  refine ⟨_, List.rel_filter (fun m n hmn => ?_) hturn, hp.filter _⟩
  dsimp only
  rw [hmn.1]

theorem AlikeNamed.nodup_iff {ms ns : List (Text × Form)} (h : AlikeNamed ms ns) :
    (ms.map (·.1)).Nodup ↔ (ns.map (·.1)).Nodup := by
  obtain ⟨ms', hturn, hp⟩ := h
  rw [hturn.keys_eq]
  exact (hp.map _).nodup_iff

theorem AlikeNamed.given? {ms ns : List (Text × Form)} (h : AlikeNamed ms ns)
    (hkeys : (ms.map (·.1)).Nodup) (name : String) :
    Option.Rel Alike (given? ms name) (given? ns name) := by
  obtain ⟨ms', hturn, hp⟩ := h
  have hfind : ms'.find? (fun m => m.1 == name.toList) = ns.find? fun m => m.1 == name.toList := by
    refine List.find?_eq_find?_of_perm hp ?_
    rintro m ⟨hm, hmn⟩ n ⟨hn, hnn⟩
    rw [hturn.keys_eq] at hkeys
    exact List.inj_on_of_nodup_map hkeys hm hn
      ((beq_iff_eq.mp hmn).trans (beq_iff_eq.mp hnn).symm)
  have hgiven := hturn.given? name
  rwa [ScriptNotebook.given?, ScriptNotebook.given?, hfind] at hgiven

theorem named?_cons (k : List Piece) (f : Form) (ms : List (List Piece × Form)) :
    named? ((k, f) :: ms) =
      (Piece.text? k).bind fun key => (named? ms).bind fun named => some ((key, f) :: named) := by
  rw [named?, List.mapM_cons]
  dsimp only
  cases Piece.text? k <;> rfl

theorem AlikeMembers.named? {ms ns : List (List Piece × Form)} (h : AlikeMembers ms ns) :
    Option.Rel AlikeInTurn (named? ms) (named? ns) := by
  induction ms generalizing ns with
  | nil =>
    cases h
    exact .some .nil
  | cons m ms ih =>
    cases h with
    | @cons k l _ _ _ _ hk hv h =>
      rw [named?_cons, named?_cons, hk]
      cases Piece.text? l with
      | none => exact .none
      | some key =>
        rw [Option.bind_some, Option.bind_some]
        refine rel_bind (ih h) fun s t hst => .some ?_
        exact List.forall₂_cons.mpr ⟨⟨rfl, hv⟩, hst⟩

theorem named?_object {ms ns : List (List Piece × Form)} (h : Alike (object ms) (object ns)) :
    Option.Rel AlikeNamed (named? ms) (named? ns) := by
  cases h with
  | @object _ ms' _ hkeys h hp =>
    have hperm : Option.Rel List.Perm (named? ms') (named? ns) := mapM_perm hp
    exact rel_comp h.named? hperm

theorem AlikeInTurn.zip {fs gs : List Form} (h : List.Forall₂ Alike fs gs) (names : List Text) :
    AlikeInTurn (names.zip fs) (names.zip gs) := by
  induction h generalizing names with
  | nil => simp [AlikeInTurn]
  | cons hfg h ih =>
    cases names with
    | nil => exact .nil
    | cons name names => exact .cons ⟨rfl, hfg⟩ (ih names)

theorem Alike.fields? {f g : Form} (h : Alike f g) (names : List Text) :
    Option.Rel (fun s t => ∀ name, Option.Rel Alike (given? s name) (given? t name))
      (f.fields? names) (g.fields? names) := by
  cases h with
  | array h =>
    rw [Form.fields?, Form.fields?, h.length_eq]
    split
    · exact .some (AlikeInTurn.zip h names).given?
    · exact .none
  | object hkeys h hp =>
    refine rel_bind (named?_object (.object hkeys h hp)) fun s t hst => ?_
    have hasked := hst.filter names.contains
    dsimp only
    by_cases hn : ((s.filter fun m => names.contains m.1).map (·.1)).Nodup
    · rw [if_pos hn, if_pos (hasked.nodup_iff.mp hn)]
      exact .some (hasked.given? hn)
    · rw [if_neg hn, if_neg (mt hasked.nodup_iff.mpr hn)]
      exact .none
  | _ => exact .none

end Form

end Json

end ScriptNotebook
