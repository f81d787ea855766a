import Mathlib.Algebra.Order.Ring.Int

/-!
# Text in JavaScript

What `String.prototype.trim` takes for white space, and the integers a JavaScript number holds
exactly. White space is that of the language, with the byte order mark and without the next-line
character, so it is not the Unicode property other languages trim by.
-/

namespace Js

/-- `WhiteSpace` or `LineTerminator` of the language. -/
def isWhitespace (c : Char) : Bool :=
  let n := c.toNat
  (9 ≤ n && n ≤ 13) || n == 0x20 || n == 0xA0 || n == 0x1680 || (0x2000 ≤ n && n ≤ 0x200A)
    || n == 0x2028 || n == 0x2029 || n == 0x202F || n == 0x205F || n == 0x3000 || n == 0xFEFF

/-- `text.trim().length === 0`. -/
def isBlank (text : String) : Bool :=
  text.toList.all isWhitespace

/-- `text.length`: the number of UTF-16 code units. -/
def length (text : String) : Nat :=
  (text.toList.map fun c => if c.toNat < 0x10000 then 1 else 2).sum

/-- `text.includes(part)`. -/
def includes (text part : String) : Bool :=
  text.toList.tails.any part.toList.isPrefixOf

/-- `Number.MAX_SAFE_INTEGER`. -/
def maxSafeInteger : Nat :=
  2 ^ 53 - 1

/-! ### Numbers in text -/

/-- The quotient of two numbers, rounded to even in the middle. -/
def roundedQuotient (n d : Nat) : Nat :=
  let quotient := n / d
  let remainder := n % d
  if 2 * remainder < d ∨ (2 * remainder = d ∧ quotient % 2 = 0) then quotient else quotient + 1

/-- The double nearest to a fraction, if it is an integer. -/
def nearestInteger (n d : Nat) : Option Nat :=
  let whole := n / d
  if whole = 0 then
    if n * 2 ^ 1075 ≤ d then some 0
    else if roundedQuotient (n * 2 ^ 53) d = 2 ^ 53 then some 1
    else none
  else if whole < 2 ^ 53 then
    let scale := 2 ^ (52 - whole.log2)
    let scaled := roundedQuotient (n * scale) d
    if scaled % scale = 0 then some (scaled / scale) else none
  else
    let unit := 2 ^ (whole.log2 - 52)
    let rounded := roundedQuotient n (d * unit) * unit
    if rounded < 2 ^ 1024 then some rounded else none

/-- The value of a digit in any base up to sixteen. -/
def digitValue (c : Char) : Option Nat :=
  if '0' ≤ c && c ≤ '9' then some (c.toNat - 48)
  else if 'a' ≤ c && c ≤ 'f' then some (c.toNat - 87)
  else if 'A' ≤ c && c ≤ 'F' then some (c.toNat - 55)
  else none

/-- Digits in a base, at least one of them. -/
def digitsIn (base : Nat) (digits : List Char) : Option Nat :=
  if digits = [] then none
  else digits.foldl (fun value c => do
    let value ← value
    let digit ← (digitValue c).filter (· < base)
    pure (value * base + digit)) (some 0)

/-- A decimal literal without its sign: digits with a point in them or not, and an exponent. -/
def decimalLiteral (chars : List Char) : Option Nat :=
  let isDigit := fun (c : Char) => '0' ≤ c && c ≤ '9'
  let whole := chars.takeWhile isDigit
  let rest := chars.dropWhile isDigit
  let point := rest.head? = some '.'
  let fraction := if point then rest.tail.takeWhile isDigit else []
  let rest := if point then rest.tail.dropWhile isDigit else rest
  let exponent : Option Int :=
    match rest with
    | [] => some 0
    | c :: '-' :: digits => if c ∈ ['e', 'E'] then (digitsIn 10 digits).map fun n => -(n : Int) else none
    | c :: '+' :: digits => if c ∈ ['e', 'E'] then (digitsIn 10 digits).map (↑·) else none
    | c :: digits => if c ∈ ['e', 'E'] then (digitsIn 10 digits).map (↑·) else none
  match digitsIn 10 (whole ++ fraction), exponent with
  | some mantissa, some exponent =>
    let shift := exponent - fraction.length
    if 0 ≤ shift then nearestInteger (mantissa * 10 ^ shift.toNat) 1
    else nearestInteger mantissa (10 ^ (-shift).toNat)
  | _, _ => none

/-- `Number(text)`, if it is an integer. -/
def integerOf (text : String) : Option Int :=
  let chars := ((text.toList.dropWhile isWhitespace).reverse.dropWhile isWhitespace).reverse
  match chars with
  | [] => some 0
  | '0' :: 'x' :: digits | '0' :: 'X' :: digits => (digitsIn 16 digits).bind fun n => (nearestInteger n 1).map (↑·)
  | '0' :: 'o' :: digits | '0' :: 'O' :: digits => (digitsIn 8 digits).bind fun n => (nearestInteger n 1).map (↑·)
  | '0' :: 'b' :: digits | '0' :: 'B' :: digits => (digitsIn 2 digits).bind fun n => (nearestInteger n 1).map (↑·)
  | '-' :: literal => (decimalLiteral literal).map fun n => -(n : Int)
  | '+' :: literal => (decimalLiteral literal).map (↑·)
  | literal => (decimalLiteral literal).map (↑·)

example : integerOf "-1" = some (-1) ∧ integerOf " 007 " = some 7 ∧ integerOf "0x1F" = some 31
    ∧ integerOf "1.5e1" = some 15 ∧ integerOf "1.5" = none ∧ integerOf "Infinity" = none := by decide

/-! ### Blank texts -/

/-- A text is not blank as soon as one character of it is not white space. -/
theorem isBlank_eq_false {text : String} : isBlank text = false ↔ ∃ c ∈ text.toList, isWhitespace c = false := by
  simp [isBlank]

theorem isBlank_append_left {text more : String} (h : isBlank text = false) : isBlank (text ++ more) = false := by
  obtain ⟨c, hc, hblank⟩ := (isBlank_eq_false).mp h
  exact (isBlank_eq_false).mpr ⟨c, by simp [hc], hblank⟩

theorem isBlank_append_right {text more : String} (h : isBlank more = false) : isBlank (text ++ more) = false := by
  obtain ⟨c, hc, hblank⟩ := (isBlank_eq_false).mp h
  exact (isBlank_eq_false).mpr ⟨c, by simp [hc], hblank⟩

end Js
