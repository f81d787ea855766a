import Mathlib.Data.List.Basic

/-!
# Self-delimiting texts

A text is put together from the texts of its parts without a count of their lengths. It can still be taken apart
again if each part shows where it ends: `Delimited` says that two encodings in front of any two texts are equal
only if the encoded values are, and so the texts behind them. Texts of one length are delimited, and so are
texts closed by a character that does not occur in them; pairs, fixed surroundings and separated lists keep it.
-/

/-- An encoding shows where it ends, and is that of one value only. -/
def Delimited {α γ : Type} (enc : α → List γ) : Prop :=
  ∀ a b r r', enc a ++ r = enc b ++ r' → a = b ∧ r = r'

namespace Delimited

variable {α β γ : Type} {enc : α → List γ} {enc' : β → List γ}

theorem injective (h : Delimited enc) : Function.Injective enc := by
  intro a b hab
  have happend : enc a ++ [] = enc b ++ [] := by rw [hab]
  exact (h a b [] [] happend).1

theorem of_length (hinj : Function.Injective enc) (hlength : ∀ a b, (enc a).length = (enc b).length) :
    Delimited enc := by
  intro a b r r' h
  obtain ⟨hhead, hrest⟩ := List.append_inj h (hlength a b)
  exact ⟨hinj hhead, hrest⟩

/-- What stands before the first occurrence of a character. -/
theorem eq_of_append_cons {c : γ} {l l' r r' : List γ} (hl : c ∉ l) (hl' : c ∉ l')
    (h : l ++ c :: r = l' ++ c :: r') : l = l' ∧ r = r' := by
  induction l generalizing l' with
  | nil =>
    cases l' with
    | nil => exact ⟨rfl, (List.cons.inj h).2⟩
    | cons x l' =>
      have hhead : c = x := (List.cons.inj h).1
      exact absurd (hhead ▸ List.mem_cons_self) hl'
  | cons x l ih =>
    cases l' with
    | nil =>
      have hhead : x = c := (List.cons.inj h).1
      exact absurd (hhead ▸ List.mem_cons_self) hl
    | cons y l' =>
      obtain ⟨hhead, htail⟩ := List.cons.inj h
      obtain ⟨hlist, hrest⟩ :=
        ih (fun hmem => hl (List.mem_cons_of_mem x hmem)) (fun hmem => hl' (List.mem_cons_of_mem y hmem)) htail
      exact ⟨by rw [hhead, hlist], hrest⟩

theorem of_closed {c : γ} (hinj : Function.Injective enc) (hfree : ∀ a, c ∉ enc a) :
    Delimited fun a => enc a ++ [c] := by
  intro a b r r' h
  have hcons : enc a ++ c :: r = enc b ++ c :: r' := by simpa using h
  obtain ⟨hhead, hrest⟩ := eq_of_append_cons (hfree a) (hfree b) hcons
  exact ⟨hinj hhead, hrest⟩

theorem pair (h : Delimited enc) (h' : Delimited enc') : Delimited fun p : α × β => enc p.1 ++ enc' p.2 := by
  intro p q r r' hpq
  have hassoc : enc p.1 ++ (enc' p.2 ++ r) = enc q.1 ++ (enc' q.2 ++ r') := by simpa using hpq
  obtain ⟨hfirst, hrest⟩ := h _ _ _ _ hassoc
  obtain ⟨hsecond, hrest⟩ := h' _ _ _ _ hrest
  exact ⟨Prod.ext hfirst hsecond, hrest⟩

/-- The last text need not show where it ends. -/
theorem pair_injective (h : Delimited enc) (h' : Function.Injective enc') :
    Function.Injective fun p : α × β => enc p.1 ++ enc' p.2 := by
  intro p q hpq
  obtain ⟨hfirst, hrest⟩ := h _ _ _ _ hpq
  exact Prod.ext hfirst (h' hrest)

theorem before (h : Delimited enc) (w : List γ) : Delimited fun a => w ++ enc a := by
  intro a b r r' hab
  have hassoc : w ++ (enc a ++ r) = w ++ (enc b ++ r') := by simpa using hab
  exact h _ _ _ _ (List.append_cancel_left hassoc)

theorem after (h : Delimited enc) (w : List γ) : Delimited fun a => enc a ++ w := by
  intro a b r r' hab
  have hassoc : enc a ++ (w ++ r) = enc b ++ (w ++ r') := by simpa using hab
  obtain ⟨hvalue, hrest⟩ := h _ _ _ _ hassoc
  exact ⟨hvalue, List.append_cancel_left hrest⟩

/-- The texts of a list one behind the other, closed by a character that begins none of them. -/
theorem flatMap_closed (h : Delimited enc) (close : γ) (hbegin : ∀ a, ∃ x xs, enc a = x :: xs ∧ x ≠ close) :
    Delimited fun l : List α => l.flatMap enc ++ [close] := by
  intro l
  induction l with
  | nil =>
    intro l' r r' hl
    cases l' with
    | nil => exact ⟨rfl, (List.cons.inj hl).2⟩
    | cons b l' =>
      obtain ⟨x, xs, hx, hne⟩ := hbegin b
      simp only [List.flatMap_cons, hx, List.cons_append] at hl
      exact absurd (List.cons.inj hl).1.symm hne
  | cons a l ih =>
    intro l' r r' hl
    cases l' with
    | nil =>
      obtain ⟨x, xs, hx, hne⟩ := hbegin a
      simp only [List.flatMap_cons, hx, List.cons_append] at hl
      exact absurd (List.cons.inj hl).1 hne
    | cons b l' =>
      have htail : enc a ++ (l.flatMap enc ++ [close] ++ r) = enc b ++ (l'.flatMap enc ++ [close] ++ r') := by
        simpa using hl
      obtain ⟨hhead, hrest⟩ := h _ _ _ _ htail
      obtain ⟨hlist, hend⟩ := ih _ _ _ hrest
      exact ⟨by rw [hhead, hlist], hend⟩

/-! ### Lists -/

/-- The texts of a list with a separator in front of each. -/
def following (sep : γ) (enc : α → List γ) (l : List α) : List γ :=
  l.flatMap fun a => sep :: enc a

/-- The texts of a list with separators between them. -/
def separated (sep : γ) (enc : α → List γ) : List α → List γ
  | [] => []
  | a :: l => enc a ++ following sep enc l

section Closed

variable {sep close : γ} {P : α → Prop} {Q : List γ → Prop}

/-- A list with separators in front, closed by another character, where the elements of `P` can be taken apart in
front of the texts of `Q`. -/
theorem following_read (hclose : close ≠ sep) (hends : ∀ r, Q (sep :: r) ∧ Q (close :: r)) :
    ∀ {xs ys : List α} {r r' : List γ}, (∀ y ∈ ys, P y) →
      (∀ x ∈ xs, ∀ y, P y → ∀ q q', Q q → Q q' → enc x ++ q = enc y ++ q' → x = y ∧ q = q') →
      following sep enc xs ++ close :: r = following sep enc ys ++ close :: r' → xs = ys ∧ r = r'
  | [], [], _, _, _, _, h => ⟨rfl, (List.cons.inj h).2⟩
  | [], _ :: _, _, _, _, _, h => absurd (List.cons.inj h).1 hclose
  | _ :: _, [], _, _, _, _, h => absurd (List.cons.inj h).1.symm hclose
  | x :: xs, y :: ys, r, r', hys, hread, h => by
    have hrests (zs : List α) (q : List γ) : Q (following sep enc zs ++ close :: q) := by
      cases zs with
      | nil => exact (hends q).2
      | cons z zs => exact (hends _).1
    have htail : enc x ++ (following sep enc xs ++ close :: r) = enc y ++ (following sep enc ys ++ close :: r') := by
      simpa [following] using h
    obtain ⟨rfl, hrest⟩ := hread x List.mem_cons_self y (hys y List.mem_cons_self) _ _ (hrests _ _) (hrests _ _) htail
    obtain ⟨rfl, hend⟩ := following_read hclose hends (fun z hz => hys z (List.mem_cons_of_mem x hz))
      (fun z hz => hread z (List.mem_cons_of_mem x hz)) hrest
    exact ⟨rfl, hend⟩

/-- A list with separators between, closed by another character, which begins no element. -/
theorem separated_read (hclose : close ≠ sep) (hends : ∀ r, Q (sep :: r) ∧ Q (close :: r))
    (hbegin : ∀ a, P a → ∃ x xs, enc a = x :: xs ∧ x ≠ close) {xs ys : List α} {r r' : List γ} (hxs : ∀ x ∈ xs, P x)
    (hys : ∀ y ∈ ys, P y) (hread : ∀ x ∈ xs, ∀ y, P y → ∀ q q', Q q → Q q' → enc x ++ q = enc y ++ q' → x = y ∧ q = q')
    (h : separated sep enc xs ++ close :: r = separated sep enc ys ++ close :: r') : xs = ys ∧ r = r' := by
  have hapart (zs : List α) (z : α) (hz : P z) (q q' : List γ) : close :: q ≠ separated sep enc (z :: zs) ++ q' := by
    obtain ⟨c, cs, hc, hne⟩ := hbegin z hz
    rw [separated, hc]
    exact fun heq => hne (List.cons.inj heq).1.symm
  cases xs with
  | nil =>
    cases ys with
    | nil => exact ⟨rfl, (List.cons.inj h).2⟩
    | cons y ys => exact absurd h (hapart ys y (hys y List.mem_cons_self) _ _)
  | cons x xs =>
    cases ys with
    | nil => exact absurd h.symm (hapart xs x (hxs x List.mem_cons_self) _ _)
    | cons y ys =>
      -- Behind a separator in front of each, the two lists read the same.
      have hfollowing : following sep enc (x :: xs) ++ close :: r = following sep enc (y :: ys) ++ close :: r' := by
        simpa [following, separated] using h
      exact following_read hclose hends hys hread hfollowing

theorem separated_closed (h : Delimited enc) (sep close : γ) (hclose : close ≠ sep)
    (hbegin : ∀ a, ∃ x xs, enc a = x :: xs ∧ x ≠ close) : Delimited fun l => separated sep enc l ++ [close] := by
  intro l l' r r' hl
  simp only [List.append_assoc, List.singleton_append] at hl
  exact separated_read (P := fun _ => True) (Q := fun _ => True) hclose (fun _ => ⟨trivial, trivial⟩)
    (fun a _ => hbegin a) (fun _ _ => trivial) (fun _ _ => trivial) (fun x _ y _ q q' _ _ => h x y q q') hl

end Closed

end Delimited
