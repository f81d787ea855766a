import Mathlib.Algebra.Order.Ring.Int
import Mathlib.Data.List.Chain

/-!
# Histories

A history is a nonempty list of entries, oldest first, that only grows at its end. `Chain` says that each
entry stands in a relation to the one after it, which a push preserves when the last entry stands in
that relation to the new one. What the relation keeps holds between the first entry and every other one.
`asOf` reads the entry in force at a cutoff, and an entry pushed after the cutoff does not change the answer.
-/

/-- Entries in the order in which they were made, at least one. -/
structure History (α : Type) where
  entries : List α
  nonempty : entries ≠ []

namespace History

variable {α : Type}

/-- The history of one entry. -/
def start (a : α) : History α where
  entries := [a]
  nonempty := by simp

def first (h : History α) : α :=
  h.entries.head h.nonempty

def last (h : History α) : α :=
  h.entries.getLast h.nonempty

/-- One entry more. -/
def push (h : History α) (a : α) : History α where
  entries := h.entries ++ [a]
  nonempty := by simp

variable {h : History α} {a b : α}

@[simp]
theorem entries_start : (start a).entries = [a] :=
  rfl

@[simp]
theorem first_start : (start a).first = a :=
  rfl

@[simp]
theorem last_start : (start a).last = a :=
  rfl

@[simp]
theorem entries_push : (h.push a).entries = h.entries ++ [a] :=
  rfl

@[simp]
theorem last_push : (h.push a).last = a := by
  simp [last, push]

@[simp]
theorem first_push : (h.push a).first = h.first :=
  List.head_append_left h.nonempty

theorem last_mem (h : History α) : h.last ∈ h.entries :=
  List.getLast_mem h.nonempty

theorem entries_eq_cons (h : History α) : h.entries = h.first :: h.entries.tail :=
  (List.cons_head_tail h.nonempty).symm

/-! ### Chains -/

/-- Each entry stands in a relation to the next one. -/
def Chain (R : α → α → Prop) (h : History α) : Prop :=
  List.IsChain R h.entries

variable {R : α → α → Prop}

theorem Chain.start : Chain R (start a) :=
  List.isChain_singleton a

theorem Chain.push (hc : Chain R h) (ha : R h.last a) : Chain R (h.push a) := by
  refine List.isChain_append.mpr ⟨hc, List.isChain_singleton a, fun x hx y hy => ?_⟩
  rw [List.getLast?_eq_some_getLast h.nonempty] at hx
  obtain rfl : h.last = x := Option.some.inj hx
  obtain rfl : a = y := Option.some.inj hy
  exact ha

/-- A transitive relation along a chain holds between the first entry and every later one. -/
theorem Chain.first_rel [IsTrans α R] (hc : Chain R h) (hb : b ∈ h.entries.tail) : R h.first b := by
  have hpairs := List.isChain_iff_pairwise.mp hc
  rw [h.entries_eq_cons] at hpairs
  exact List.rel_of_pairwise_cons hpairs hb

theorem Chain.numbered {number : α → Nat} (hc : Chain (fun x y => number y = number x + 1) h) :
    h.entries.map number = List.range' (number h.first) h.entries.length := by
  have key (a : α) (l : List α) (hl : List.IsChain (fun x y => number y = number x + 1) (a :: l)) :
      (a :: l).map number = List.range' (number a) (l.length + 1) := by
    induction l generalizing a with
    | nil => rfl
    | cons b l ih =>
      obtain ⟨hab, hrest⟩ := List.isChain_cons_cons.mp hl
      rw [List.map_cons, ih b hrest, hab]
      rfl
  have hlength : h.entries.length = h.entries.tail.length + 1 := by
    rw [h.entries_eq_cons, List.length_cons, List.tail_cons]
  rw [hlength, ← key h.first h.entries.tail (h.entries_eq_cons ▸ hc), ← h.entries_eq_cons]

theorem Chain.imp {S : α → α → Prop} (hRS : ∀ x y, R x y → S x y) (hc : Chain R h) : Chain S h :=
  List.IsChain.imp (fun {x y} => hRS x y) hc

/-! ### Growth -/

/-- What was recorded is still there, in the same places. -/
def Grows (h h' : History α) : Prop :=
  h.entries <+: h'.entries

theorem Grows.refl (h : History α) : Grows h h :=
  List.prefix_refl _

theorem Grows.trans {h h' h'' : History α} (h₁ : Grows h h') (h₂ : Grows h' h'') : Grows h h'' :=
  List.IsPrefix.trans h₁ h₂

theorem Grows.push (h : History α) (a : α) : Grows h (h.push a) :=
  List.prefix_append _ _

/-! ### Reading at a cutoff -/

section AsOf

variable {τ : Type} [LinearOrder τ]

/-- The last entry that was made by a cutoff. -/
def asOf (time : α → τ) (cutoff : τ) (h : History α) : Option α :=
  h.entries.reverse.find? fun a => time a ≤ cutoff

variable {time : α → τ} {cutoff : τ}

theorem asOf_start_later (ha : cutoff < time a) : asOf time cutoff (start a) = none := by
  simp [asOf, start, ha]

/-- An entry made after the cutoff is not seen. -/
theorem asOf_push_later (ha : cutoff < time a) : asOf time cutoff (h.push a) = asOf time cutoff h := by
  simp only [asOf, entries_push, List.reverse_append, List.reverse_singleton, List.singleton_append]
  rw [List.find?_cons_of_neg (by simpa using ha)]

theorem asOf_mem (hfound : asOf time cutoff h = some a) : a ∈ h.entries ∧ time a ≤ cutoff := by
  have hmem := List.mem_of_find?_eq_some hfound
  have htime := List.find?_some hfound
  exact ⟨List.mem_reverse.mp hmem, of_decide_eq_true htime⟩

end AsOf

end History
