import Mathlib.Data.List.Sort

/-!
# Reading a sorted list page by page

A page is the first elements behind a cursor, and the cursor of the next page is the key of its last element. The
list may grow between two pages. `walk_sorted` says that no key is read twice, `walk_complete` that a key which is
there all the time is read when the last page was not filled, and `walk_const` that a list nobody changes is read
as it is.
-/

namespace Paging

variable {α κ : Type} [LinearOrder κ]

/-- The elements in the order of their keys, no key twice. -/
def Sorted (key : α → κ) (l : List α) : Prop :=
  l.Pairwise fun a b => key a < key b

/-- The elements behind a cursor. -/
def beyond (key : α → κ) (after : Option κ) (l : List α) : List α :=
  l.filter fun a => decide (∀ cursor ∈ after, cursor < key a)

/-- One page. -/
def page (key : α → κ) (after : Option κ) (limit : Nat) (l : List α) : List α :=
  (beyond key after l).take limit

/-- The cursor behind a page, which is the one before it where the page is empty. -/
def next (key : α → κ) (after : Option κ) (read : List α) : Option κ :=
  (read.getLast?.map key).or after

/-- Page after page, each with the list it is read from and its limit. -/
def walk (key : α → κ) : Option κ → List (List α × Nat) → List α
  | _, [] => []
  | after, (l, limit) :: rest => page key after limit l ++ walk key (next key after (page key after limit l)) rest

/-- The last page was not filled. -/
def Ended (key : α → κ) : Option κ → List (List α × Nat) → Prop
  | _, [] => False
  | after, [(l, limit)] => (page key after limit l).length < limit
  | after, (l, limit) :: rest => Ended key (next key after (page key after limit l)) rest

variable {key : α → κ} {after : Option κ} {l : List α} {limit : Nat}

variable {a : α} {steps : List (List α × Nat)} {items : List α}

theorem mem_beyond : a ∈ beyond key after l ↔ a ∈ l ∧ ∀ cursor ∈ after, cursor < key a := by
  rw [beyond, List.mem_filter, decide_eq_true_eq]

theorem Sorted.beyond (h : Sorted key l) (after : Option κ) : Sorted key (beyond key after l) :=
  List.Pairwise.sublist List.filter_sublist h

/-- What is behind the cursor of a page is what the page left over. -/
theorem beyond_next (h : Sorted key l) :
    beyond key (next key after (page key after limit l)) l = (beyond key after l).drop limit := by
  have hsorted := h.beyond after
  have hsplit := List.take_append_drop limit (beyond key after l)
  rw [next]
  cases hlast : (page key after limit l).getLast? with
  | none =>
    have hempty : (beyond key after l).take limit = [] := List.getLast?_eq_none_iff.mp hlast
    rw [hempty, List.nil_append] at hsplit
    exact hsplit.symm
  | some last =>
    obtain ⟨front, hfront⟩ := List.getLast?_eq_some_iff.mp hlast
    have hfront : (beyond key after l).take limit = front ++ [last] := hfront
    rw [hfront] at hsplit
    rw [← hsplit, Sorted, List.pairwise_append, List.pairwise_append] at hsorted
    obtain ⟨⟨-, -, hbefore⟩, -, hbehind⟩ := hsorted
    -- The elements behind the new cursor are behind the old one too.
    have hfilter : beyond key (some (key last)) l = (beyond key after l).filter fun a => decide (key last < key a) := by
      have hlast : last ∈ beyond key after l := by
        rw [← hsplit]
        simp
      have hcursor := (mem_beyond.mp hlast).2
      unfold beyond
      rw [List.filter_filter]
      apply List.filter_congr
      intro a _
      rw [← Bool.decide_and]
      apply decide_eq_decide.mpr
      constructor
      · intro hlater
        exact ⟨hlater _ rfl, fun cursor hmem => (hcursor cursor hmem).trans (hlater _ rfl)⟩
      · rintro ⟨hlater, -⟩ cursor hmem
        rwa [← Option.some.inj hmem]
    show beyond key (some (key last)) l = _
    rw [hfilter]
    nth_rewrite 1 [← hsplit]
    rw [List.filter_append, List.filter_eq_nil_iff.mpr, List.nil_append, List.filter_eq_self.mpr]
    · exact fun a hmem => decide_eq_true (hbehind last (by simp) a hmem)
    · intro a hmem
      rw [decide_eq_true_eq, not_lt]
      rcases List.mem_append.mp hmem with hmem | hmem
      · exact (hbefore a hmem last List.mem_cons_self).le
      · rw [List.mem_singleton.mp hmem]

theorem page_append_beyond (h : Sorted key l) :
    page key after limit l ++ beyond key (next key after (page key after limit l)) l = beyond key after l := by
  rw [beyond_next h]
  exact List.take_append_drop limit _

theorem mem_of_mem_page (h : a ∈ page key after limit l) : a ∈ l ∧ ∀ cursor ∈ after, cursor < key a :=
  mem_beyond.mp (List.mem_of_mem_take h)

/-- The elements of a page are not behind its cursor. -/
theorem le_next (h : Sorted key l) (ha : a ∈ page key after limit l) :
    ∃ cursor, next key after (page key after limit l) = some cursor ∧ key a ≤ cursor := by
  have hsome : (page key after limit l).getLast?.isSome := by
    rw [List.getLast?_isSome]
    exact List.ne_nil_of_mem ha
  obtain ⟨last, hlast⟩ := Option.isSome_iff_exists.mp hsome
  refine ⟨key last, by rw [next, hlast]; rfl, ?_⟩
  obtain ⟨front, hfront⟩ := List.getLast?_eq_some_iff.mp hlast
  have hpage : Sorted key (page key after limit l) := List.Pairwise.sublist (List.take_sublist _ _) (h.beyond after)
  rw [hfront, Sorted, List.pairwise_append] at hpage
  rw [hfront] at ha
  rcases List.mem_append.mp ha with ha | ha
  · exact (hpage.2.2 a ha last List.mem_cons_self).le
  · rw [List.mem_singleton.mp ha]

/-- A cursor never goes back. -/
theorem after_le_next {cursor : κ} (h : cursor ∈ after) :
    ∃ later, next key after (page key after limit l) = some later ∧ cursor ≤ later := by
  rw [next]
  cases hlast : (page key after limit l).getLast? with
  | none => exact ⟨cursor, h, le_rfl⟩
  | some last =>
    have hmem := (mem_of_mem_page (List.mem_of_getLast? hlast)).2 cursor h
    exact ⟨key last, rfl, hmem.le⟩

theorem mem_walk (h : a ∈ walk key after steps) : (∀ cursor ∈ after, cursor < key a) ∧ ∃ step ∈ steps, a ∈ step.1 := by
  induction steps generalizing after with
  | nil => cases h
  | cons step rest ih =>
    rcases List.mem_append.mp h with hpage | hrest
    · obtain ⟨hmem, hafter⟩ := mem_of_mem_page hpage
      exact ⟨hafter, step, List.mem_cons_self, hmem⟩
    · obtain ⟨hnext, other, hother, hmem⟩ := ih hrest
      refine ⟨fun cursor hcursor => ?_, other, List.mem_cons_of_mem _ hother, hmem⟩
      obtain ⟨later, hlater, hle⟩ := @after_le_next _ _ _ key _ step.1 step.2 _ hcursor
      exact lt_of_le_of_lt hle (hnext later hlater)

theorem walk_sorted (h : ∀ step ∈ steps, Sorted key step.1) : Sorted key (walk key after steps) := by
  induction steps generalizing after with
  | nil => exact .nil
  | cons step rest ih =>
    obtain ⟨hfirst, hrest⟩ := List.forall_mem_cons.mp h
    rw [walk, Sorted, List.pairwise_append]
    refine ⟨List.Pairwise.sublist (List.take_sublist _ _) (hfirst.beyond after), ih hrest, ?_⟩
    intro a ha b hb
    obtain ⟨cursor, hcursor, hle⟩ := le_next hfirst ha
    exact lt_of_le_of_lt hle ((mem_walk hb).1 cursor hcursor)

/-- A key that is there all the time is read, when the last page was not filled. -/
theorem walk_complete {k : κ} (hsorted : ∀ step ∈ steps, Sorted key step.1)
    (hthere : ∀ step ∈ steps, ∃ a ∈ step.1, key a = k) (hafter : ∀ cursor ∈ after, cursor < k)
    (hended : Ended key after steps) : ∃ a ∈ walk key after steps, key a = k := by
  induction steps generalizing after with
  | nil => exact absurd hended id
  | cons step rest ih =>
    obtain ⟨l, limit⟩ := step
    obtain ⟨hfirst, hrest⟩ := List.forall_mem_cons.mp hsorted
    obtain ⟨⟨a, ha, hkey⟩, hthere⟩ := List.forall_mem_cons.mp hthere
    have hbeyond : a ∈ beyond key after l := mem_beyond.mpr ⟨ha, hkey ▸ hafter⟩
    rw [← @page_append_beyond _ _ _ _ _ _ limit hfirst] at hbeyond
    rcases List.mem_append.mp hbeyond with hpage | hlater
    · exact ⟨a, List.mem_append_left _ hpage, hkey⟩
    · cases rest with
      | nil =>
        -- The page that was not filled left nothing over.
        rw [beyond_next hfirst] at hlater
        have hshort : (beyond key after l).length < limit := by
          have hlength : (page key after limit l).length < limit := hended
          rw [page, List.length_take] at hlength
          omega
        rw [List.drop_of_length_le hshort.le] at hlater
        cases hlater
      | cons second later =>
        have hcursor := (mem_beyond.mp hlater).2
        rw [hkey] at hcursor
        obtain ⟨b, hb, hbkey⟩ := ih hrest hthere hcursor hended
        exact ⟨b, List.mem_append_right _ hb, hbkey⟩

/-- A list nobody changes is read as it is. -/
theorem walk_const (h : Sorted key l) {limits : List Nat}
    (hended : Ended key after (limits.map fun limit => (l, limit))) :
    walk key after (limits.map fun limit => (l, limit)) = beyond key after l := by
  induction limits generalizing after with
  | nil => exact absurd hended id
  | cons limit rest ih =>
    cases rest with
    | nil =>
      have hlength : (page key after limit l).length < limit := hended
      rw [page, List.length_take] at hlength
      have hshort : (beyond key after l).length ≤ limit := by omega
      show page key after limit l ++ [] = _
      rw [List.append_nil, page, List.take_of_length_le hshort]
    | cons second later =>
      rw [List.map_cons, walk, ih hended]
      exact page_append_beyond h

/-- Without a cursor nothing is left out. -/
theorem beyond_none : beyond key none l = l := by
  simp [beyond]

/-! ### Cursors that say less than the order -/

/-- All pages of a list that is not in the order of the cursors: a page is followed by what is behind the
key of its last element, as long as elements are left over. -/
inductive Walk (key : α → κ) (limit : Nat) (l : List α) : Option κ → List α → Prop where
  | last (after : Option κ) (h : (beyond key after l).length ≤ limit) : Walk key limit l after (beyond key after l)
  | more (after : Option κ) (a : α) (rest : List α) (h : limit < (beyond key after l).length)
      (hlast : ((beyond key after l).take limit).getLast? = some a) (hrest : Walk key limit l (some (key a)) rest) :
      Walk key limit l after ((beyond key after l).take limit ++ rest)

/-- The element in front of a cut tells what is in front of the cut from what is behind it. -/
def CleanCut (key : α → κ) (l : List α) (n : Nat) : Prop :=
  ∀ a, (l.take n).getLast? = some a → (∀ b ∈ l.take n, key b ≤ key a) ∧ ∀ b ∈ l.drop n, key a < key b

theorem getLast_take {n : Nat} (hn : 0 < n) (hl : l ≠ []) : ∃ a, (l.take n).getLast? = some a := by
  have hne : l.take n ≠ [] := by
    rw [Ne, List.take_eq_nil_iff]
    exact fun h => h.elim (by omega) hl
  exact ⟨_, List.getLast?_eq_some_getLast hne⟩

/-- Every walk ends, as a cursor leaves its own element behind. -/
theorem exists_walk (hlimit : 0 < limit) (l : List α) (after : Option κ) : ∃ items, Walk key limit l after items := by
  induction hn : (beyond key after l).length using Nat.strongRecOn generalizing after with
  | ind n ih =>
    by_cases hlast : (beyond key after l).length ≤ limit
    · exact ⟨_, .last after hlast⟩
    · have hne : beyond key after l ≠ [] := by
        intro h
        rw [h] at hlast
        exact hlast (Nat.zero_le _)
      obtain ⟨a, ha⟩ := getLast_take hlimit hne
      have hmem : a ∈ beyond key after l := List.mem_of_mem_take (List.mem_of_getLast? ha)
      obtain ⟨hal, hafter⟩ := mem_beyond.mp hmem
      have hsub : beyond key (some (key a)) l = (beyond key after l).filter fun b => decide (key a < key b) := by
        unfold beyond
        rw [List.filter_filter]
        apply List.filter_congr
        intro b _
        rw [← Bool.decide_and]
        apply decide_eq_decide.mpr
        constructor
        · exact fun h => ⟨h _ rfl, fun cursor hc => (hafter cursor hc).trans (h _ rfl)⟩
        · rintro ⟨h, -⟩ cursor hc
          rwa [← Option.some.inj hc]
      have hshorter : (beyond key (some (key a)) l).length < (beyond key after l).length := by
        rw [hsub]
        refine List.length_filter_lt_length_iff_exists.mpr ⟨a, hmem, ?_⟩
        simp
      obtain ⟨rest, hrest⟩ := ih _ (hn ▸ hshorter) (some (key a)) rfl
      exact ⟨_, .more after a rest (Nat.lt_of_not_le hlast) ha hrest⟩

/-- What is read is behind the cursor. -/
theorem Walk.beyond (h : Walk key limit l after items) (ha : a ∈ items) : ∀ cursor ∈ after, cursor < key a := by
  induction h with
  | last after _ => exact (mem_beyond.mp ha).2
  | more after b rest _ hb _ ih =>
    rcases List.mem_append.mp ha with ha | ha
    · exact (mem_beyond.mp (List.mem_of_mem_take ha)).2
    · have hlast := (mem_beyond.mp (List.mem_of_mem_take (List.mem_of_getLast? hb))).2
      exact fun cursor hcursor => (hlast cursor hcursor).trans (ih ha _ rfl)

theorem Walk.first (hlimit : 0 < limit) (h : Walk key limit l after items)
    {others : List α} (ha : Paging.beyond key after l = a :: others) : a ∈ items := by
  cases h with
  | last _ _ => simp [ha]
  | more _ b rest _ _ _ =>
    rw [ha]
    obtain ⟨n, rfl⟩ := Nat.exists_eq_succ_of_ne_zero (by omega : limit ≠ 0)
    simp

/-- A walk that reads the end of a list goes through exactly that end. -/
theorem Walk.beyond_eq {front back : List α} (hlimit : 0 < limit) (hl : l = front ++ back)
    (hnodup : l.Nodup) (h : Walk key limit l after back) : Paging.beyond key after l = back := by
  subst hl
  have hback : back.filter (fun a => decide (∀ cursor ∈ after, cursor < key a)) = back :=
    List.filter_eq_self.mpr fun a ha => decide_eq_true (h.beyond ha)
  have hall : Paging.beyond key after (front ++ back)
      = front.filter (fun a => decide (∀ cursor ∈ after, cursor < key a)) ++ back := by
    rw [Paging.beyond, List.filter_append, hback]
  cases hfront : front.filter (fun a => decide (∀ cursor ∈ after, cursor < key a)) with
  | nil => rw [hall, hfront, List.nil_append]
  | cons a others =>
    rw [hfront, List.cons_append] at hall
    -- an element from the front would be read first, and it is not at the end
    have hin : a ∈ front := List.mem_of_mem_filter (hfront ▸ List.mem_cons_self)
    exact absurd rfl ((List.nodup_append.mp hnodup).2.2 a hin a (h.first hlimit hall))

theorem beyond_cut {n : Nat} (hnodup : l.Nodup) (ha : (l.take n).getLast? = some a) :
    beyond key (some (key a)) l = l.drop n ↔ CleanCut key l n := by
  have hsplit : l.take n ++ l.drop n = l := List.take_append_drop n l
  constructor
  · intro h b hb
    obtain rfl := Option.some.inj (ha.symm.trans hb)
    refine ⟨fun c hc => not_lt.mp fun hlt => ?_, fun c hc => ?_⟩
    · have hmem : c ∈ beyond key (some (key a)) l :=
        mem_beyond.mpr ⟨List.mem_of_mem_take hc, fun cursor hcursor => Option.some.inj hcursor ▸ hlt⟩
      rw [h] at hmem
      rw [← hsplit] at hnodup
      exact absurd rfl ((List.nodup_append.mp hnodup).2.2 c hc c hmem)
    · rw [← h] at hc
      exact (mem_beyond.mp hc).2 _ rfl
  · intro h
    obtain ⟨hfront, hback⟩ := h a ha
    conv_lhs => rw [← hsplit]
    rw [beyond, List.filter_append, List.filter_eq_nil_iff.mpr, List.nil_append, List.filter_eq_self.mpr]
    · exact fun b hb => decide_eq_true fun cursor hcursor => Option.some.inj hcursor ▸ hback b hb
    · intro b hb
      rw [decide_eq_true_eq]
      exact fun hlt => absurd (hlt _ rfl) (not_lt.mpr (hfront b hb))

/-- Page after page a list is read as it is, exactly when the cuts between its pages are clean. -/
theorem walk_eq_iff (hlimit : 0 < limit) (hnodup : l.Nodup) (h : Walk key limit l none items) :
    items = l ↔ ∀ n, (n + 1) * limit < l.length → CleanCut key l ((n + 1) * limit) := by
  have hfrom : ∀ after items, Walk key limit l after items → ∀ m, beyond key after l = l.drop (m * limit) →
      (items = l.drop (m * limit) ↔ ∀ n, m ≤ n → (n + 1) * limit < l.length → CleanCut key l ((n + 1) * limit)) := by
    intro after items h
    induction h with
    | last after hlast =>
      intro m hm
      rw [hm] at hlast ⊢
      refine iff_of_true rfl fun n hn hlt => ?_
      rw [List.length_drop] at hlast
      have hle : (m + 1) * limit ≤ (n + 1) * limit := Nat.mul_le_mul_right limit (Nat.succ_le_succ hn)
      rw [Nat.succ_mul] at hle
      omega
    | more after a rest hmore ha hrest ih =>
      intro m hm
      rw [hm] at hmore ha ⊢
      rw [List.length_drop] at hmore
      have hstep : (m + 1) * limit = m * limit + limit := Nat.succ_mul m limit
      have hlt : (m + 1) * limit < l.length := by omega
      have hdrop : (l.drop (m * limit)).take limit ++ l.drop ((m + 1) * limit) = l.drop (m * limit) := by
        rw [hstep, ← List.drop_drop]
        exact List.take_append_drop limit _
      have hcut : (l.take ((m + 1) * limit)).getLast? = some a := by
        have htake : l.take (m * limit) ++ (l.drop (m * limit)).take limit = l.take ((m + 1) * limit) := by
          rw [hstep, List.take_add]
        rw [← htake, List.getLast?_append, ha]
        rfl
      have hsame : (l.drop (m * limit)).take limit ++ rest = l.drop (m * limit) ↔ rest = l.drop ((m + 1) * limit) :=
        ⟨fun h => List.append_cancel_left (h.trans hdrop.symm), fun h => h ▸ hdrop⟩
      have hlater : (∀ n, m ≤ n → (n + 1) * limit < l.length → CleanCut key l ((n + 1) * limit))
          ↔ CleanCut key l ((m + 1) * limit)
            ∧ ∀ n, m + 1 ≤ n → (n + 1) * limit < l.length → CleanCut key l ((n + 1) * limit) := by
        constructor
        · exact fun h => ⟨h m le_rfl hlt, fun n hn => h n (Nat.le_of_succ_le hn)⟩
        · rintro ⟨hfirst, hothers⟩ n hn
          rcases hn.eq_or_lt with rfl | hn
          · exact fun _ => hfirst
          · exact hothers n hn
      rw [hsame, hlater]
      constructor
      · intro hread
        have hsplit : l.take ((m + 1) * limit) ++ l.drop ((m + 1) * limit) = l := List.take_append_drop _ l
        have hbeyond : beyond key (some (key a)) l = l.drop ((m + 1) * limit) := by
          rw [hread] at hrest
          exact hrest.beyond_eq hlimit hsplit.symm hnodup
        exact ⟨(beyond_cut hnodup hcut).mp hbeyond, (ih (m + 1) hbeyond).mp hread⟩
      · rintro ⟨hclean, hothers⟩
        exact (ih (m + 1) ((beyond_cut hnodup hcut).mpr hclean)).mpr hothers
  have hnone : beyond key none l = l.drop (0 * limit) := by
    rw [beyond_none, Nat.zero_mul, List.drop_zero]
  have hall := hfrom none items h 0 hnone
  rw [Nat.zero_mul, List.drop_zero] at hall
  rw [hall]
  exact ⟨fun h n => h n (Nat.zero_le n), fun h n _ => h n⟩

end Paging
