import Mathlib.Data.List.Induction
import ScriptNotebook.Json.Value
import ScriptNotebook.Proofs.PrintedJson
import ScriptNotebook.Proofs.TextOrder

/-!
Values that printing and reading give back.  Whatever a form is worth comes back from its own form,
doubles apart: strings and integers do, and members that have been put in order stay as they are.
-/
namespace ScriptNotebook

namespace Json

def Increasing (members : List (Text × Json)) : Prop :=
  members.Pairwise fun m n => m.1.before n.1 = true

theorem mem_insertMember {key : Text} {value : Json} {members : List (Text × Json)}
    {m : Text × Json} (h : m ∈ insertMember key value members) :
    m = (key, value) ∨ m ∈ members := by
  induction members with
  | nil => exact Or.inl (List.mem_singleton.mp h)
  | cons n members ih =>
    rw [insertMember] at h
    split at h
    · rcases List.mem_cons.mp h with h | h
      · exact Or.inl h
      · exact Or.inr (List.mem_cons_of_mem n h)
    · split at h
      · exact List.mem_cons.mp h
      · rcases List.mem_cons.mp h with rfl | h
        · exact Or.inr List.mem_cons_self
        · exact (ih h).imp_right (List.mem_cons_of_mem n)

theorem Increasing.insertMember {members : List (Text × Json)} (h : Increasing members)
    (key : Text) (value : Json) : Increasing (insertMember key value members) := by
  induction members with
  | nil => exact List.pairwise_singleton _ _
  | cons n members ih =>
    obtain ⟨hn, hrest⟩ := List.pairwise_cons.mp h
    rw [Json.insertMember]
    split
    · next he => exact List.pairwise_cons.mpr ⟨fun m hm => he ▸ hn m hm, hrest⟩
    · next hne =>
      split
      · next hb =>
        refine List.pairwise_cons.mpr ⟨fun m hm => ?_, h⟩
        rcases List.mem_cons.mp hm with rfl | hm
        · exact hb
        · exact Text.before_trans hb (hn m hm)
      · next hb =>
        have hafter : n.1.before key = true :=
          Text.before_of_not_before hne hb
        refine List.pairwise_cons.mpr ⟨fun m hm => ?_, ih hrest⟩
        rcases mem_insertMember hm with rfl | hm
        · exact hafter
        · exact hn m hm

theorem insertMember_of_last {key : Text} (value : Json) {members : List (Text × Json)}
    (h : ∀ m ∈ members, m.1.before key = true) :
    insertMember key value members = members ++ [(key, value)] := by
  induction members with
  | nil => rfl
  | cons n members ih =>
    have hn := h n List.mem_cons_self
    have hne : key ≠ n.1 := by
      rintro rfl
      simp at hn
    have hb : ¬ key.before n.1 = true := by
      intro hb
      have hself := Text.before_trans hb hn
      simp at hself
    rw [insertMember, if_neg hne, if_neg hb, ih fun m hm => h m (List.mem_cons_of_mem n hm)]
    rfl

theorem increasing_sortMembers (members : List (Text × Json)) :
    Increasing (sortMembers members) := by
  induction members using List.reverseRecOn with
  | nil => exact List.Pairwise.nil
  | append_singleton members m ih =>
    rw [sortMembers, List.foldl_append]
    exact ih.insertMember m.1 m.2

theorem mem_sortMembers {members : List (Text × Json)} {m : Text × Json}
    (h : m ∈ sortMembers members) : m ∈ members := by
  induction members using List.reverseRecOn with
  | nil => exact h
  | append_singleton members n ih =>
    rw [sortMembers, List.foldl_append] at h
    rcases mem_insertMember h with rfl | h
    · simp
    · exact List.mem_append_left [n] (ih h)

theorem sortMembers_of_increasing {members : List (Text × Json)} (h : Increasing members) :
    sortMembers members = members := by
  induction members using List.reverseRecOn with
  | nil => rfl
  | append_singleton members m ih =>
    obtain ⟨hfront, -, hlast⟩ := List.pairwise_append.mp h
    rw [sortMembers, List.foldl_append, ← sortMembers, ih hfront]
    exact insertMember_of_last m.2 fun n hn => hlast n hn m (List.mem_singleton_self m)

theorem orderedItems_eq_map (vs : List Json) : orderedItems vs = vs.map ordered := by
  induction vs with
  | nil => rfl
  | cons v vs ih => rw [orderedItems, ih, List.map_cons]

theorem orderedMembers_eq_map (ms : List (Text × Json)) :
    orderedMembers ms = ms.map fun m => (m.1, m.2.ordered) := by
  induction ms with
  | nil => rfl
  | cons m ms ih => rw [orderedMembers, ih, List.map_cons]

theorem ordered_array {vs : List Json} (h : ∀ v ∈ vs, v.ordered = v) :
    (array vs).ordered = array vs := by
  rw [ordered, orderedItems_eq_map, List.map_congr_left h, List.map_id']

theorem ordered_ofMembers {ms : List (Text × Json)} (h : ∀ m ∈ ms, m.2.ordered = m.2) :
    (ofMembers ms).ordered = ofMembers ms := by
  have hmembers : orderedMembers (sortMembers ms) = sortMembers ms := by
    have hself : ∀ m ∈ sortMembers ms, (m.1, m.2.ordered) = m :=
      fun m hm => Prod.ext rfl (h m (mem_sortMembers hm))
    rw [orderedMembers_eq_map, List.map_congr_left hself, List.map_id']
  rw [ofMembers, ordered, hmembers, ofMembers,
    sortMembers_of_increasing (increasing_sortMembers ms)]

mutual

theorem ordered_ordered : (v : Json) → v.ordered.ordered = v.ordered
  | null => rfl
  | bool _ => rfl
  | integer _ => rfl
  | double _ => rfl
  | string _ => rfl
  | array items => ordered_array (ordered_of_mem_orderedItems items)
  | object members => ordered_ofMembers (ordered_of_mem_orderedMembers members)

theorem ordered_of_mem_orderedItems : (vs : List Json) → ∀ v ∈ orderedItems vs, v.ordered = v
  | [], _, h => absurd h List.not_mem_nil
  | w :: ws, v, h => by
    rcases List.mem_cons.mp h with rfl | h
    · exact ordered_ordered w
    · exact ordered_of_mem_orderedItems ws v h

theorem ordered_of_mem_orderedMembers : (ms : List (Text × Json)) →
    ∀ m ∈ orderedMembers ms, m.2.ordered = m.2
  | [], _, h => absurd h List.not_mem_nil
  | (_, w) :: ms, m, h => by
    rcases List.mem_cons.mp h with rfl | h
    · exact ordered_ordered w
    · exact ordered_of_mem_orderedMembers ms m h

end

@[simp] theorem Piece.text?_map_pieceOf (t : Text) : Piece.text? (t.map pieceOf) = some t := by
  induction t with
  | nil => rfl
  | cons c t ih =>
    rw [List.map_cons, pieceOf]
    split
    · next h =>
      have hlow : ¬ (0xD800 ≤ c.toNat ∧ c.toNat < 0xDC00) := by omega
      have hlow' : ¬ (0xDC00 ≤ c.toNat ∧ c.toNat < 0xE000) := by omega
      unfold text?
      rw [if_neg hlow, if_neg hlow', ih, Char.ofNat_toNat]
      rfl
    · rw [text?, ih]
      rfl

theorem Numeral.integer?_ofNat {n : Nat} (h : n < Nat.pow 2 64) :
    (Numeral.ofInt (.ofNat n)).integer? = some (.ofNat n) := by
  rw [ofInt, integer?, if_pos ⟨rfl, rfl⟩]
  dsimp only
  rw [Text.decimalValue_decimal, if_neg Bool.false_ne_true, if_pos h]
  rfl

theorem Numeral.integer?_negSucc {n : Nat} (h : n + 1 ≤ Nat.pow 2 63) :
    (Numeral.ofInt (.negSucc n)).integer? = some (.negSucc n) := by
  rw [ofInt, integer?, if_pos ⟨rfl, rfl⟩]
  dsimp only
  rw [Text.decimalValue_decimal, if_pos rfl, if_pos ⟨Nat.succ_pos n, h⟩]
  rfl

/-- An integer that a numeral is worth is worth the same in its own digits. -/
theorem Numeral.integer?_ofInt {n : Numeral} {i : Int} (h : n.integer? = some i) :
    (Numeral.ofInt i).integer? = some i := by
  rw [integer?] at h
  split at h
  · dsimp only at h
    split at h
    · split at h
      · next hr =>
        obtain rfl := Option.some.inj h
        obtain ⟨m, hm⟩ := Nat.exists_eq_succ_of_ne_zero (Nat.ne_of_gt hr.1)
        rw [hm] at hr ⊢
        exact integer?_negSucc hr.2
      · cases h
    · split at h
      · next hr =>
        obtain rfl := Option.some.inj h
        exact integer?_ofNat hr
      · cases h
  · cases h

namespace Form

mutual

theorem json?_mono {room room' : Nat} (hroom : room ≤ room') : (f : Form) → {v : Json} →
    f.json? room = some v → f.json? room' = some v
  | .null, v, h => h
  | .bool b, v, h => h
  | .number n, v, h => h
  | .string ps, v, h => h
  | .array items, v, h => by
    rw [json?] at h ⊢
    split at h
    · cases h
    · obtain ⟨vs, hvs, rfl⟩ := Option.map_eq_some_iff.mp h
      rw [if_neg (by omega), jsonItems?_mono (by omega) items hvs]
      rfl
  | .object members, v, h => by
    rw [json?] at h ⊢
    split at h
    · cases h
    · obtain ⟨ms, hms, rfl⟩ := Option.map_eq_some_iff.mp h
      rw [if_neg (by omega), jsonMembers?_mono (by omega) members hms]
      rfl

theorem jsonItems?_mono {room room' : Nat} (hroom : room ≤ room') : (fs : List Form) →
    {vs : List Json} → jsonItems? room fs = some vs → jsonItems? room' fs = some vs
  | [], vs, h => h
  | f :: fs, vs, h => by
    rw [jsonItems?] at h ⊢
    obtain ⟨v, hv, h⟩ := Option.bind_eq_some_iff.mp h
    obtain ⟨ws, hws, h⟩ := Option.bind_eq_some_iff.mp h
    rw [json?_mono hroom f hv, jsonItems?_mono hroom fs hws]
    exact h

theorem jsonMembers?_mono {room room' : Nat} (hroom : room ≤ room') :
    (ms : List (List Piece × Form)) → {vs : List (Text × Json)} →
    jsonMembers? room ms = some vs → jsonMembers? room' ms = some vs
  | [], vs, h => h
  | (k, f) :: ms, vs, h => by
    rw [jsonMembers?] at h ⊢
    obtain ⟨key, hk, h⟩ := Option.bind_eq_some_iff.mp h
    obtain ⟨v, hv, h⟩ := Option.bind_eq_some_iff.mp h
    obtain ⟨ws, hws, h⟩ := Option.bind_eq_some_iff.mp h
    rw [hk, json?_mono hroom f hv, jsonMembers?_mono hroom ms hws]
    exact h

end

mutual

theorem ordered_of_json? {room : Nat} : (f : Form) → {v : Json} → f.json? room = some v →
    v.ordered = v
  | .null, v, h => by
    obtain rfl := Option.some.inj h
    rfl
  | .bool b, v, h => by
    obtain rfl := Option.some.inj h
    rfl
  | .number n, v, h => by
    rw [json?, Numeral.json?] at h
    split at h
    · obtain rfl := Option.some.inj h
      rfl
    · obtain ⟨x, -, rfl⟩ := Option.map_eq_some_iff.mp h
      rfl
  | .string ps, v, h => by
    obtain ⟨t, -, rfl⟩ := Option.map_eq_some_iff.mp h
    rfl
  | .array items, v, h => by
    rw [json?] at h
    obtain ⟨-, h⟩ := Option.ite_none_left_eq_some.mp h
    obtain ⟨vs, hvs, rfl⟩ := Option.map_eq_some_iff.mp h
    exact ordered_array (ordered_of_jsonItems? items hvs)
  | .object members, v, h => by
    rw [json?] at h
    obtain ⟨-, h⟩ := Option.ite_none_left_eq_some.mp h
    obtain ⟨ms, hms, rfl⟩ := Option.map_eq_some_iff.mp h
    exact ordered_ofMembers (ordered_of_jsonMembers? members hms)

theorem ordered_of_jsonItems? {room : Nat} : (fs : List Form) → {vs : List Json} →
    jsonItems? room fs = some vs → ∀ v ∈ vs, v.ordered = v
  | [], vs, h => by
    obtain rfl := Option.some.inj h
    simp
  | f :: fs, vs, h => by
    rw [jsonItems?] at h
    obtain ⟨v, hv, h⟩ := Option.bind_eq_some_iff.mp h
    obtain ⟨ws, hws, h⟩ := Option.bind_eq_some_iff.mp h
    obtain rfl := Option.some.inj h
    exact List.forall_mem_cons.mpr ⟨ordered_of_json? f hv, ordered_of_jsonItems? fs hws⟩

theorem ordered_of_jsonMembers? {room : Nat} : (ms : List (List Piece × Form)) →
    {vs : List (Text × Json)} → jsonMembers? room ms = some vs → ∀ m ∈ vs, m.2.ordered = m.2
  | [], vs, h => by
    obtain rfl := Option.some.inj h
    simp
  | (k, f) :: ms, vs, h => by
    rw [jsonMembers?] at h
    obtain ⟨key, hk, h⟩ := Option.bind_eq_some_iff.mp h
    obtain ⟨v, hv, h⟩ := Option.bind_eq_some_iff.mp h
    obtain ⟨ws, hws, h⟩ := Option.bind_eq_some_iff.mp h
    obtain rfl := Option.some.inj h
    exact List.forall_mem_cons.mpr ⟨ordered_of_json? f hv, ordered_of_jsonMembers? ms hws⟩

end

end Form

mutual

def doubleFree : Json → Bool
  | double _ => false
  | array items => itemsDoubleFree items
  | object members => membersDoubleFree members
  | _ => true
termination_by structural v => v

def itemsDoubleFree : List Json → Bool
  | [] => true
  | v :: vs => doubleFree v && itemsDoubleFree vs
termination_by structural vs => vs

def membersDoubleFree : List (Text × Json) → Bool
  | [] => true
  | (_, v) :: ms => doubleFree v && membersDoubleFree ms
termination_by structural ms => ms

end

theorem itemsDoubleFree_iff {vs : List Json} :
    itemsDoubleFree vs = true ↔ ∀ v ∈ vs, v.doubleFree = true := by
  induction vs with
  | nil => simp [itemsDoubleFree]
  | cons v vs ih => simp [itemsDoubleFree, ih]

theorem membersDoubleFree_iff {ms : List (Text × Json)} :
    membersDoubleFree ms = true ↔ ∀ m ∈ ms, m.2.doubleFree = true := by
  induction ms with
  | nil => simp [membersDoubleFree]
  | cons m ms ih => simp [membersDoubleFree, ih]

/-- With so much room, the form of the value is worth the value. -/
def ReadsBack (room : Nat) (v : Json) : Prop := v.toForm.json? room = some v

theorem map_ordered_of_readsBack {room : Nat} {vs : List Json} (h : ∀ v ∈ vs, v.ReadsBack room) :
    vs.map ordered = vs := by
  have hordered : ∀ v ∈ vs, v.ordered = v := fun v hv => Form.ordered_of_json? _ (h v hv)
  rw [List.map_congr_left hordered, List.map_id']

theorem jsonItems?_itemForms {room : Nat} {vs : List Json} (h : ∀ v ∈ vs, v.ReadsBack room) :
    Form.jsonItems? room (itemForms vs) = some vs := by
  induction vs with
  | nil => rfl
  | cons v vs ih =>
    have hv : v.toForm.json? room = some v := h v List.mem_cons_self
    rw [itemForms, Form.jsonItems?, hv, ih fun w hw => h w (List.mem_cons_of_mem v hw)]
    rfl

theorem jsonMembers?_memberForms {room : Nat} {ms : List (Text × Json)}
    (h : ∀ m ∈ ms, m.2.ReadsBack room) :
    Form.jsonMembers? room (memberForms ms) = some ms := by
  induction ms with
  | nil => rfl
  | cons m ms ih =>
    have hm : m.2.toForm.json? room = some m.2 := h m List.mem_cons_self
    rw [memberForms, Form.jsonMembers?, hm, ih fun n hn => h n (List.mem_cons_of_mem m hn),
      Piece.text?_map_pieceOf]
    rfl

theorem ReadsBack.array {room : Nat} {vs : List Json} (h : ∀ v ∈ vs, v.ReadsBack room) :
    (array vs).ReadsBack (room + 1) := by
  rw [ReadsBack, toForm, Form.json?, if_neg (Nat.succ_ne_zero room), Nat.add_sub_cancel,
    jsonItems?_itemForms h]
  rfl

theorem ReadsBack.object {room : Nat} {ms : List (Text × Json)} (hi : Increasing ms)
    (h : ∀ m ∈ ms, m.2.ReadsBack room) : (object ms).ReadsBack (room + 1) := by
  rw [ReadsBack, toForm, Form.json?, if_neg (Nat.succ_ne_zero room), Nat.add_sub_cancel,
    jsonMembers?_memberForms h, Option.map_some, ofMembers, sortMembers_of_increasing hi]

theorem readsBack_string (room : Nat) (t : Text) : (string t).ReadsBack room := by
  rw [ReadsBack, toForm, Form.json?, Piece.text?_map_pieceOf]
  rfl

mutual

/-- What a form is worth reads back, unless there are doubles in it. -/
theorem readsBack_of_json? {room : Nat} : (f : Form) → {v : Json} → f.json? room = some v →
    v.doubleFree = true → v.ReadsBack room
  | .null, v, h, _ => by
    obtain rfl := Option.some.inj h
    rfl
  | .bool b, v, h, _ => by
    obtain rfl := Option.some.inj h
    rfl
  | .number n, v, h, hd => by
    rw [Form.json?, Numeral.json?] at h
    split at h
    · next i hi =>
      obtain rfl := Option.some.inj h
      rw [ReadsBack, toForm, Form.json?, Numeral.json?, Numeral.integer?_ofInt hi]
    · obtain ⟨x, -, rfl⟩ := Option.map_eq_some_iff.mp h
      cases hd
  | .string ps, v, h, _ => by
    obtain ⟨t, -, rfl⟩ := Option.map_eq_some_iff.mp h
    exact readsBack_string room t
  | .array items, v, h, hd => by
    rw [Form.json?] at h
    split at h
    · cases h
    · next hroom =>
      obtain ⟨vs, hvs, rfl⟩ := Option.map_eq_some_iff.mp h
      obtain ⟨room, rfl⟩ := Nat.exists_eq_succ_of_ne_zero hroom
      exact ReadsBack.array fun w hw =>
        readsBack_of_jsonItems? items hvs w hw (itemsDoubleFree_iff.mp hd w hw)
  | .object members, v, h, hd => by
    rw [Form.json?] at h
    split at h
    · cases h
    · next hroom =>
      obtain ⟨ms, hms, rfl⟩ := Option.map_eq_some_iff.mp h
      obtain ⟨room, rfl⟩ := Nat.exists_eq_succ_of_ne_zero hroom
      -- Only the last member of a key is kept, so nothing is known of doubles in the others.
      exact ReadsBack.object (increasing_sortMembers ms) fun m hm =>
        readsBack_of_jsonMembers? members hms m (mem_sortMembers hm)
          (membersDoubleFree_iff.mp hd m hm)

theorem readsBack_of_jsonItems? {room : Nat} : (fs : List Form) → {vs : List Json} →
    Form.jsonItems? room fs = some vs → ∀ v ∈ vs, v.doubleFree = true → v.ReadsBack room
  | [], vs, h => by
    obtain rfl := Option.some.inj h
    simp
  | f :: fs, vs, h => by
    rw [Form.jsonItems?] at h
    obtain ⟨v, hv, h⟩ := Option.bind_eq_some_iff.mp h
    obtain ⟨ws, hws, h⟩ := Option.bind_eq_some_iff.mp h
    obtain rfl := Option.some.inj h
    intro w hw hd
    rcases List.mem_cons.mp hw with rfl | hw
    · exact readsBack_of_json? f hv hd
    · exact readsBack_of_jsonItems? fs hws w hw hd

theorem readsBack_of_jsonMembers? {room : Nat} : (ms : List (List Piece × Form)) →
    {vs : List (Text × Json)} → Form.jsonMembers? room ms = some vs →
    ∀ m ∈ vs, m.2.doubleFree = true → m.2.ReadsBack room
  | [], vs, h => by
    obtain rfl := Option.some.inj h
    simp
  | (k, f) :: ms, vs, h => by
    rw [Form.jsonMembers?] at h
    obtain ⟨key, -, h⟩ := Option.bind_eq_some_iff.mp h
    obtain ⟨v, hv, h⟩ := Option.bind_eq_some_iff.mp h
    obtain ⟨ws, hws, h⟩ := Option.bind_eq_some_iff.mp h
    obtain rfl := Option.some.inj h
    intro m hm hd
    rcases List.mem_cons.mp hm with rfl | hm
    · exact readsBack_of_json? f hv hd
    · exact readsBack_of_jsonMembers? ms hws m hm hd

end

end Json

end ScriptNotebook
