/-!
Texts are lists of characters, so that every rule on them is a recursion on the data.  This module
holds the cuts the rules use: a fixed beginning, the first occurrence of a separator, the edges.
-/
namespace ScriptNotebook

abbrev Text := List Char

/-- Drops the longest run at the end whose members satisfy `p`. -/
def dropEndWhile {α : Type} (p : α → Bool) : List α → List α
  | [] => []
  | a :: l =>
    match dropEndWhile p l with
    | [] => if p a then [] else [a]
    | b :: r => a :: b :: r

def trimEdges {α : Type} (p : α → Bool) (l : List α) : List α :=
  dropEndWhile p (l.dropWhile p)

theorem dropEndWhile_eq_nil_iff {α : Type} (p : α → Bool) (l : List α) :
    dropEndWhile p l = [] ↔ ∀ a ∈ l, p a = true := by
  induction l with
  | nil => simp [dropEndWhile]
  | cons a l ih =>
    rw [dropEndWhile]
    split
    · next h => by_cases ha : p a = true <;> simp_all
    · next h =>
      simp only [reduceCtorEq, List.mem_cons, forall_eq_or_imp, false_iff, not_and]
      intro _ hall
      rw [ih.mpr hall] at h
      exact absurd h (by simp)

namespace Text

/-- What follows `start` when the text begins with it. -/
def strip? (start : Text) (t : Text) : Option Text :=
  match start, t with
  | [], t => some t
  | _ :: _, [] => none
  | s :: start, c :: t => if s = c then strip? start t else none

theorem strip?_append (start t : Text) : strip? start (start ++ t) = some t := by
  induction start with
  | nil => cases t <;> rfl
  | cons c start ih => simp [strip?, ih]

theorem eq_append_of_strip? {start t r : Text} (h : strip? start t = some r) : t = start ++ r := by
  induction start generalizing t with
  | nil => cases t <;> simp_all [strip?]
  | cons c start ih =>
    cases t with
    | nil => simp [strip?] at h
    | cons d t =>
      by_cases hc : c = d
      · subst hc
        simp only [strip?, if_pos] at h
        simp [ih h]
      · simp [strip?, hc] at h

def startsWith (start t : Text) : Bool := (strip? start t).isSome

/-- What follows the first occurrence of `mark`. -/
def after? (mark : Text) : Text → Option Text
  | [] => strip? mark []
  | c :: t => (strip? mark (c :: t)).or (after? mark t)

def contains (part t : Text) : Bool := (after? part t).isSome

def join (mark : Text) : List Text → Text
  | [] => []
  | [t] => t
  | t :: u :: rest => t ++ mark ++ join mark (u :: rest)

/-- Cuts at every occurrence of the character `mark`; there is always one piece more than marks. -/
def cut (mark : Char) : Text → List Text
  | [] => [[]]
  | c :: t =>
    match cut mark t with
    | [] => [[c]]
    | piece :: rest => if c = mark then [] :: piece :: rest else (c :: piece) :: rest

@[simp] theorem cut_nil (mark : Char) : cut mark [] = [[]] := rfl

theorem cut_ne_nil (mark : Char) (t : Text) : cut mark t ≠ [] := by
  induction t with
  | nil => simp [cut]
  | cons c t ih =>
    rw [cut]
    split
    · simp
    · split <;> simp

theorem cut_mark (mark : Char) (t : Text) : cut mark (mark :: t) = [] :: cut mark t := by
  rw [cut]
  split
  · next h => exact absurd h (cut_ne_nil mark t)
  · next h => simp [h]

/-- The order of texts by code points, which is also the order of their UTF-8 bytes. -/
def before : Text → Text → Bool
  | [], [] => false
  | [], _ :: _ => true
  | _ :: _, [] => false
  | a :: s, b :: t => if a = b then before s t else a.toNat < b.toNat

@[simp] theorem before_self (t : Text) : before t t = false := by
  induction t with
  | nil => rfl
  | cons c t ih => simp [before, ih]

end Text

end ScriptNotebook
