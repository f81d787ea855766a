import GeoMaster.Domain.Base
import GeoMaster.Lib.JsText

/-!
# JSON values in JavaScript

What JavaScript makes of a value that was read from JSON text: members, truth, strict equality, arrays,
strings and integers. A value is a JSON value or `undefined`. Of an array and a string only the length is
read by name. Numbers are doubles: an unsigned integer is rounded to 53 bits, a float that stands for an
integer is that integer, and other floats are told apart by their text, which is the shortest one.
-/

namespace GeoMaster

/-- A value read from JSON text, or `undefined`. -/
abbrev JsValue : Type :=
  Option Json

/-- The double nearest to an integer, ties to even. -/
def roundDouble (n : Nat) : Nat :=
  if n < 2 ^ 53 then n
  else
    let unit := 2 ^ (n.log2 - 52)
    let quotient := n / unit
    let remainder := n % unit
    if 2 * remainder < unit ∨ (2 * remainder = unit ∧ quotient % 2 = 0) then quotient * unit
    else (quotient + 1) * unit

/-- The value of some decimal digits. -/
def digitsValue (digits : List Char) : Nat :=
  digits.foldl (fun n c => 10 * n + (c.toNat - 48)) 0

/-- The integer that the text of a float stands for. -/
def floatInteger (text : String) : Option Int :=
  let negative := text.toList.head? = some '-'
  let body := if negative then text.toList.tail else text.toList
  let whole := body.takeWhile Text.isAsciiDigit
  let rest := body.dropWhile Text.isAsciiDigit
  let fraction := if rest.head? = some '.' then rest.tail.takeWhile Text.isAsciiDigit else []
  let exponent : Int :=
    match rest.dropWhile (· ≠ 'e') with
    | 'e' :: '-' :: digits => -(digitsValue digits : Int)
    | 'e' :: digits => digitsValue digits
    | _ => 0
  let shift := exponent - fraction.length
  let mantissa := digitsValue (whole ++ fraction)
  let magnitude : Option Nat :=
    if 0 ≤ shift then some (mantissa * 10 ^ shift.toNat)
    else if mantissa % 10 ^ (-shift).toNat = 0 then some (mantissa / 10 ^ (-shift).toNat)
    else none
  magnitude.map fun n => if negative then -(n : Int) else n

/-- A number as a double: its integer value, or the text of a double that is no integer. -/
def JsonNumber.double : JsonNumber → Int ⊕ String
  | .posInt n => .inl (roundDouble n.toNat)
  | .negInt n => .inl (-(roundDouble n.toInt.natAbs : Int))
  | .float text =>
    match floatInteger text with
    | some n => .inl n
    | none => .inr text

/-- The members of an object. -/
def Json.members : Json → Option (List (String × Json))
  | .object fields => some fields
  | _ => none

namespace JsValue

/-- `value.key`; reading a member of null or undefined is a `TypeError`. -/
def member (value : JsValue) (key : String) : Option JsValue :=
  match value with
  | none => none
  | some .null => none
  | some (.object fields) => some ((Json.object fields).get key)
  | some (.array items) => some (if key = "length" then some (.ofNat items.length) else none)
  | some (.string text) => some (if key = "length" then some (.ofNat (Js.length text)) else none)
  | some _ => some none

/-- `value?.key`. -/
def optionalMember (value : JsValue) (key : String) : JsValue :=
  (value.member key).getD none

/-- Whether a value counts as true. -/
def truthy : JsValue → Bool
  | none => false
  | some .null => false
  | some (.bool b) => b
  | some (.number n) => n.double ≠ .inl 0
  | some (.string text) => text ≠ ""
  | some _ => true

/-- `a === b` of two values that were read separately: no two objects are the same. -/
def strictEq : JsValue → JsValue → Bool
  | none, none => true
  | some .null, some .null => true
  | some (.bool a), some (.bool b) => a = b
  | some (.number a), some (.number b) => a.double = b.double
  | some (.string a), some (.string b) => a = b
  | _, _ => false

/-- `value == null`. -/
def isNullish : JsValue → Bool
  | none => true
  | some .null => true
  | _ => false

/-- The text of a string. -/
def asString : JsValue → Option String
  | some (.string text) => some text
  | _ => none

/-- `value === text`. -/
def isText (value : JsValue) (text : String) : Bool :=
  value.asString = some text

/-- The items of an array. -/
def asArray (value : JsValue) : Option (List Json) :=
  value.bind Json.asArray

/-- `value === n`. -/
def isNumber (value : JsValue) (n : Int) : Bool :=
  match value with
  | some (.number m) => m.double = .inl n
  | _ => false

theorem isNumber_of_strictEq {a b : JsValue} {n : Int} (h : a.strictEq b = true) (hb : b.isNumber n = true) :
    a.isNumber n = true := by
  unfold strictEq at h
  split at h <;> simp_all [isNumber]

/-- `Number.isSafeInteger(value) && value >= 0`, with the integer. -/
def safeInteger : JsValue → Option Nat
  | some (.number n) =>
    match n.double with
    | .inl (.ofNat k) => if k ≤ Js.maxSafeInteger then some k else none
    | _ => none
  | _ => none

/-- An object, as it is written to JSON text: without its undefined members. -/
def object (fields : List (String × JsValue)) : Json :=
  .ofFields (fields.filterMap fun field => field.2.map fun value => (field.1, value))

end JsValue

end GeoMaster
