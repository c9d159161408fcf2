import ScriptNotebook.Json.Double

/-!
JSON values.  The members of an object are listed as they were put down; `Json.ofMembers` brings
them into increasing order of their keys, the last of equal keys winning, and `Json.ordered` does so
at every depth.
-/
namespace ScriptNotebook

inductive Json
  | null
  | bool (value : Bool)
  | integer (value : Int)
  | double (value : Double)
  | string (value : Text)
  | array (items : List Json)
  | object (members : List (Text × Json))

namespace Json

mutual

protected def beq : Json → Json → Bool
  | null, null => true
  | bool a, bool b => a == b
  | integer a, integer b => a == b
  | double a, double b => a == b
  | string a, string b => a == b
  | array a, array b => itemsBeq a b
  | object a, object b => membersBeq a b
  | _, _ => false
termination_by structural a => a

def itemsBeq : List Json → List Json → Bool
  | [], [] => true
  | a :: s, b :: t => Json.beq a b && itemsBeq s t
  | _, _ => false
termination_by structural a => a

def membersBeq : List (Text × Json) → List (Text × Json) → Bool
  | [], [] => true
  | (k, a) :: s, (l, b) :: t => k == l && Json.beq a b && membersBeq s t
  | _, _ => false
termination_by structural a => a

end

mutual

theorem eq_of_beq : {a b : Json} → Json.beq a b = true → a = b
  | null, b, h => by cases b <;> simp_all [Json.beq]
  | bool _, b, h => by cases b <;> simp_all [Json.beq]
  | integer _, b, h => by cases b <;> simp_all [Json.beq]
  | double _, b, h => by cases b <;> simp_all [Json.beq]
  | string _, b, h => by cases b <;> simp_all [Json.beq]
  | array s, b, h => by
    cases b with
    | array t => exact congrArg array (eq_of_itemsBeq (by simpa [Json.beq] using h))
    | _ => simp [Json.beq] at h
  | object s, b, h => by
    cases b with
    | object t => exact congrArg object (eq_of_membersBeq (by simpa [Json.beq] using h))
    | _ => simp [Json.beq] at h

theorem eq_of_itemsBeq : {s t : List Json} → itemsBeq s t = true → s = t
  | [], t, h => by cases t <;> simp_all [itemsBeq]
  | a :: s, t, h => by
    cases t with
    | nil => simp [itemsBeq] at h
    | cons b t =>
      simp only [itemsBeq, Bool.and_eq_true] at h
      rw [eq_of_beq h.1, eq_of_itemsBeq h.2]

theorem eq_of_membersBeq : {s t : List (Text × Json)} → membersBeq s t = true → s = t
  | [], t, h => by cases t <;> simp_all [membersBeq]
  | (k, a) :: s, t, h => by
    cases t with
    | nil => simp [membersBeq] at h
    | cons m t =>
      obtain ⟨l, b⟩ := m
      simp only [membersBeq, Bool.and_eq_true, beq_iff_eq] at h
      rw [h.1.1, eq_of_beq h.1.2, eq_of_membersBeq h.2]

end

mutual

theorem beq_self : (a : Json) → Json.beq a a = true
  | null => rfl
  | bool _ => by simp [Json.beq]
  | integer _ => by simp [Json.beq]
  | double _ => by simp [Json.beq]
  | string _ => by simp [Json.beq]
  | array s => by simp [Json.beq, itemsBeq_self s]
  | object s => by simp [Json.beq, membersBeq_self s]

theorem itemsBeq_self : (s : List Json) → itemsBeq s s = true
  | [] => rfl
  | a :: s => by simp [itemsBeq, beq_self a, itemsBeq_self s]

theorem membersBeq_self : (s : List (Text × Json)) → membersBeq s s = true
  | [] => rfl
  | (k, a) :: s => by simp [membersBeq, beq_self a, membersBeq_self s]

end

instance : DecidableEq Json := fun a b =>
  if h : Json.beq a b = true then isTrue (eq_of_beq h)
  else isFalse fun e => h (e ▸ beq_self a)

/-- Puts a member in its place among members in increasing order, over one of the same key. -/
def insertMember (key : Text) (value : Json) : List (Text × Json) → List (Text × Json)
  | [] => [(key, value)]
  | (k, v) :: rest =>
    if key = k then (key, value) :: rest
    else if key.before k then (key, value) :: (k, v) :: rest
    else (k, v) :: insertMember key value rest

def sortMembers (members : List (Text × Json)) : List (Text × Json) :=
  members.foldl (fun sorted m => insertMember m.1 m.2 sorted) []

def ofMembers (members : List (Text × Json)) : Json := object (sortMembers members)

mutual

/-- The value as ordered maps hold it: the members of every object in it are in order. -/
def ordered : Json → Json
  | array items => array (orderedItems items)
  | object members => ofMembers (orderedMembers members)
  | v => v
termination_by structural v => v

def orderedItems : List Json → List Json
  | [] => []
  | v :: vs => ordered v :: orderedItems vs
termination_by structural vs => vs

def orderedMembers : List (Text × Json) → List (Text × Json)
  | [] => []
  | (k, v) :: ms => (k, ordered v) :: orderedMembers ms
termination_by structural ms => ms

end

def ofText (t : Text) : Json := string t

def ofTexts (ts : List Text) : Json := array (ts.map string)

def member? (key : Text) : Json → Option Json
  | object members => (members.find? fun m => m.1 == key).map (·.2)
  | _ => none

end Json

end ScriptNotebook
