import Mathlib.Tactic.Common

/-!
# Pointers

A pointer names a place in a tree by its keys, as in `/items/0/name`. Inside a key a tilde is written
`~0` and a slash `~1`, so a pointer is read back as the keys it was made of.
-/

namespace Pointer

/-- A key inside a pointer. -/
def escape (key : List Char) : List Char :=
  key.flatMap fun c => if c = '~' then ['~', '0'] else if c = '/' then ['~', '1'] else [c]

/-- A pointer one key further. -/
def push (path key : String) : String :=
  path ++ "/" ++ String.ofList (escape key.toList)

/-- The pointer of some keys. -/
def render (keys : List String) : String :=
  String.ofList (keys.flatMap fun key => '/' :: escape key.toList)

/-- Write a character for a tilde and another character, from the left. -/
def replaceTilde (code result : Char) : List Char → List Char
  | '~' :: c :: rest =>
    if c = code then result :: replaceTilde code result rest
    else '~' :: replaceTilde code result (c :: rest)
  | c :: rest => c :: replaceTilde code result rest
  | [] => []

/-- A key as it was before it was written inside a pointer. -/
def unescape (part : List Char) : List Char :=
  replaceTilde '0' '~' (replaceTilde '1' '/' part)

/-- The keys of a pointer, which begins with a slash. -/
def parse (path : String) : List String :=
  ((path.toList.drop 1).splitOn '/').map fun part => String.ofList (unescape part)

/-- Every tilde is followed by a zero or a one. -/
def wellEscaped : List Char → Bool
  | '~' :: c :: rest => (c = '0' || c = '1') && wellEscaped rest
  | ['~'] => false
  | _ :: rest => wellEscaped rest
  | [] => true

/-! ### Reading back -/

theorem replaceTilde_tilde {code result c : Char} {rest : List Char} :
    replaceTilde code result ('~' :: c :: rest)
      = if c = code then result :: replaceTilde code result rest else '~' :: replaceTilde code result (c :: rest) :=
  rfl

theorem replaceTilde_cons {code result c : Char} {rest : List Char} (h : c ≠ '~') :
    replaceTilde code result (c :: rest) = c :: replaceTilde code result rest := by
  cases rest <;> simp [replaceTilde, h]

theorem unescape_escape (key : List Char) : unescape (escape key) = key := by
  have hslash : replaceTilde '1' '/' (escape key) = key.flatMap fun c => if c = '~' then ['~', '0'] else [c] := by
    induction key with
    | nil => rfl
    | cons c rest ih =>
      rw [escape, List.flatMap_cons, ← escape, List.flatMap_cons, ← ih]
      by_cases htilde : c = '~'
      · simp [htilde, replaceTilde_tilde, replaceTilde_cons]
      · by_cases hslash : c = '/'
        · simp [hslash, replaceTilde_tilde]
        · simp [htilde, hslash, replaceTilde_cons]
  rw [unescape, hslash]
  clear hslash
  induction key with
  | nil => rfl
  | cons c rest ih =>
    rw [List.flatMap_cons]
    by_cases htilde : c = '~'
    · simp [htilde, replaceTilde_tilde, ih]
    · simp [htilde, replaceTilde_cons, ih]

theorem slash_not_mem_escape (key : List Char) : '/' ∉ escape key := by
  intro hmem
  obtain ⟨c, -, hc⟩ := List.mem_flatMap.mp hmem
  split at hc
  · simp at hc
  · split at hc
    · simp at hc
    · next hne => exact hne (List.mem_singleton.mp hc).symm

theorem push_render (keys : List String) (key : String) : push (render keys) key = render (keys ++ [key]) := by
  apply String.toList_injective
  simp [push, render]

/-- A pointer is read back as its keys. -/
theorem parse_render {keys : List String} (h : keys ≠ []) : parse (render keys) = keys := by
  have hsplit : ∀ (key : String) (rest : List String),
      (escape key.toList ++ rest.flatMap fun k => '/' :: escape k.toList).splitOn '/'
        = (key :: rest).map fun k => escape k.toList := by
    intro key rest
    induction rest generalizing key with
    | nil => simp [List.splitOn_eq_singleton (slash_not_mem_escape key.toList)]
    | cons next rest ih =>
      rw [List.flatMap_cons, List.cons_append,
        List.splitOn_append_cons_self_of_not_mem (slash_not_mem_escape key.toList), ih next]
      rfl
  obtain ⟨key, rest, rfl⟩ := List.exists_cons_of_ne_nil h
  have hparts := hsplit key rest
  have hread : ((fun part => String.ofList (unescape part)) ∘ fun k : String => escape k.toList) = id := by
    funext k
    rw [Function.comp_apply, unescape_escape]
    exact String.ofList_toList
  rw [parse, render, String.toList_ofList, List.flatMap_cons, List.cons_append, List.drop_succ_cons,
    List.drop_zero, hparts, List.map_map, hread, List.map_id]

theorem render_injective {keys others : List String} (h : keys ≠ []) (h' : others ≠ [])
    (heq : render keys = render others) : keys = others := by
  rw [← parse_render h, ← parse_render h', heq]

/-! ### Tildes -/

theorem wellEscaped_cons {c : Char} {rest : List Char} (h : c ≠ '~') : wellEscaped (c :: rest) = wellEscaped rest := by
  cases rest <;> simp [wellEscaped, h]

theorem wellEscaped_escape_append (key rest : List Char) : wellEscaped (escape key ++ rest) = wellEscaped rest := by
  induction key with
  | nil => rfl
  | cons c key ih =>
    rw [escape, List.flatMap_cons, ← escape]
    by_cases htilde : c = '~'
    · simp [htilde, wellEscaped, ih]
    · by_cases hslash : c = '/'
      · simp [hslash, wellEscaped, ih]
      · simp [htilde, hslash, wellEscaped_cons, ih]

theorem wellEscaped_render (keys : List String) : wellEscaped (render keys).toList = true := by
  rw [render, String.toList_ofList]
  induction keys with
  | nil => rfl
  | cons key rest ih =>
    rw [List.flatMap_cons, List.cons_append, wellEscaped_cons (by decide), wellEscaped_escape_append]
    exact ih

end Pointer
