import Mathlib.Algebra.Order.Ring.Int
import Mathlib.Data.List.Sort

/-!
# JSON values

The part of `serde_json` the domain crate reads and writes: values, indexing by a key, the
conversions to a string, an integer and an array, equality, and the length of the compact text.
An object keeps its fields in key order, as the map behind a `serde_json` object does. A number is an
unsigned or a negative integer of 64 bits, or a float, and a float is kept as the text it prints as.
-/

namespace GeoMaster

/-- The lowercase hexadecimal digit of a nibble. -/
def hexDigit (n : Nat) : Char :=
  if n < 10 then Char.ofNat (48 + n) else Char.ofNat (87 + n)

/-- A JSON number. -/
inductive JsonNumber where
  | posInt (n : UInt64)
  | negInt (n : Int64)
  | float (text : String)
  deriving DecidableEq

/-- A JSON value. -/
inductive Json where
  | null
  | bool (b : Bool)
  | number (n : JsonNumber)
  | string (s : String)
  | array (items : List Json)
  | object (fields : List (String × Json))

namespace Json

/-! ### Equality -/

mutual

/-- Two values are equal when they have the same shape and equal parts. -/
def decEq : (a b : Json) → Decidable (a = b)
  | .null, .null => isTrue rfl
  | .bool a, .bool b => decidable_of_iff (a = b) (by simp)
  | .number a, .number b => decidable_of_iff (a = b) (by simp)
  | .string a, .string b => decidable_of_iff (a = b) (by simp)
  | .array a, .array b =>
    match decEqItems a b with
    | isTrue h => isTrue (by rw [h])
    | isFalse h => isFalse (by simpa using h)
  | .object a, .object b =>
    match decEqFields a b with
    | isTrue h => isTrue (by rw [h])
    | isFalse h => isFalse (by simpa using h)
  | .null, .bool _ | .null, .number _ | .null, .string _ | .null, .array _ | .null, .object _
  | .bool _, .null | .bool _, .number _ | .bool _, .string _ | .bool _, .array _
  | .bool _, .object _ | .number _, .null | .number _, .bool _ | .number _, .string _
  | .number _, .array _ | .number _, .object _ | .string _, .null | .string _, .bool _
  | .string _, .number _ | .string _, .array _ | .string _, .object _ | .array _, .null
  | .array _, .bool _ | .array _, .number _ | .array _, .string _ | .array _, .object _
  | .object _, .null | .object _, .bool _ | .object _, .number _ | .object _, .string _
  | .object _, .array _ => isFalse (by simp)
termination_by structural a => a

/-- Equality of the items of two arrays. -/
def decEqItems : (a b : List Json) → Decidable (a = b)
  | [], [] => isTrue rfl
  | [], _ :: _ => isFalse (by simp)
  | _ :: _, [] => isFalse (by simp)
  | x :: xs, y :: ys =>
    match decEq x y, decEqItems xs ys with
    | isTrue h, isTrue h' => isTrue (by rw [h, h'])
    | isFalse h, _ => isFalse (by simp [h])
    | _, isFalse h => isFalse (by simp [h])
termination_by structural a => a

/-- Equality of the fields of two objects. -/
def decEqFields : (a b : List (String × Json)) → Decidable (a = b)
  | [], [] => isTrue rfl
  | [], _ :: _ => isFalse (by simp)
  | _ :: _, [] => isFalse (by simp)
  | x :: xs, y :: ys =>
    match decEqField x y, decEqFields xs ys with
    | isTrue h, isTrue h' => isTrue (by rw [h, h'])
    | isFalse h, _ => isFalse (by simp [h])
    | _, isFalse h => isFalse (by simp [h])
termination_by structural a => a

/-- Equality of two fields. -/
def decEqField : (a b : String × Json) → Decidable (a = b)
  | (k, x), (l, y) =>
    match instDecidableEqString k l, decEq x y with
    | isTrue h, isTrue h' => isTrue (by rw [h, h'])
    | isFalse h, _ => isFalse (by simp [h])
    | _, isFalse h => isFalse (by simp [h])
termination_by structural a => a

end

instance : DecidableEq Json :=
  decEq

/-! ### Reading -/

/-- The value under a key, if the value is an object that has it: `value.get(key)`. -/
def get (v : Json) (key : String) : Option Json :=
  match v with
  | .object fields => (fields.find? fun f => f.1 = key).map Prod.snd
  | _ => none

/-- `value[key]`: null when there is no such field. -/
def index (v : Json) (key : String) : Json :=
  (v.get key).getD .null

/-- The text of a string value. -/
def asStr : Json → Option String
  | .string s => some s
  | _ => none

/-- The value of an integer that fits 64 unsigned bits. -/
def asU64 : Json → Option UInt64
  | .number (.posInt n) => some n
  | _ => none

/-- The items of an array value. -/
def asArray : Json → Option (List Json)
  | .array items => some items
  | _ => none

/-- Whether the value is an object. -/
def isObject : Json → Bool
  | .object _ => true
  | _ => false

/-- Whether the value is an array. -/
def isArray : Json → Bool
  | .array _ => true
  | _ => false

/-! ### Writing -/

/-- A character inside a JSON string: the short escapes, the `\u00xx` escapes of the other control
characters, and the character itself otherwise. -/
def escapeChar (c : Char) : List Char :=
  if c = '"' then ['\\', '"']
  else if c = '\\' then ['\\', '\\']
  else if c = '\n' then ['\\', 'n']
  else if c = '\r' then ['\\', 'r']
  else if c = '\t' then ['\\', 't']
  else if c.toNat = 8 then ['\\', 'b']
  else if c.toNat = 12 then ['\\', 'f']
  else if c.toNat < 32 then
    ['\\', 'u', '0', '0', hexDigit (c.toNat / 16), hexDigit (c.toNat % 16)]
  else [c]

/-- A JSON string, with its quotes. -/
def quote (s : String) : List Char :=
  ['"'] ++ s.toList.flatMap escapeChar ++ ['"']

/-- A JSON number. -/
def numberText : JsonNumber → List Char
  | .posInt n => (toString n.toNat).toList
  | .negInt n => (toString n.toInt).toList
  | .float text => text.toList

mutual

/-- The compact text, without any white space. -/
def compact : Json → List Char
  | .null => "null".toList
  | .bool true => "true".toList
  | .bool false => "false".toList
  | .number n => numberText n
  | .string s => quote s
  | .array items => ['['] ++ compactItems true items ++ [']']
  | .object fields => [Char.ofNat 123] ++ compactFields true fields ++ [Char.ofNat 125]
termination_by structural v => v

/-- The items of an array, with commas between them. -/
def compactItems (first : Bool) : List Json → List Char
  | [] => []
  | x :: xs => (if first then [] else [',']) ++ compact x ++ compactItems false xs
termination_by structural xs => xs

/-- The fields of an object, with commas between them. -/
def compactFields (first : Bool) : List (String × Json) → List Char
  | [] => []
  | f :: fs => (if first then [] else [',']) ++ compactField f ++ compactFields false fs
termination_by structural fs => fs

/-- One field: the key, a colon and the value. -/
def compactField : String × Json → List Char
  | (key, x) => quote key ++ [':'] ++ compact x
termination_by structural f => f

end

/-- `serde_json::to_string`. -/
def toText (v : Json) : String :=
  String.ofList v.compact

/-- `serde_json::to_vec(value).len()`: bytes of the compact text. -/
def toVecLen (v : Json) : Nat :=
  (v.compact.map Char.utf8Size).sum

/-- An object from fields in any order: the fields are kept in key order. -/
def ofFields (fields : List (String × Json)) : Json :=
  .object (fields.insertionSort fun a b => a.1 ≤ b.1)

/-- A field that is left out when there is no value. -/
def optionalField (key : String) (value : Option Json) : List (String × Json) :=
  value.elim [] fun v => [(key, v)]

/-- Members in the order they are written. Those without a value are left out. -/
def optionalFields (ms : List (String × Option Json)) : List (String × Json) :=
  ms.flatMap fun m => optionalField m.1 m.2

/-- An unsigned integer. -/
def ofNat (n : Nat) : Json :=
  .number (.posInt (UInt64.ofNat n))

def u32 (n : UInt32) : Json :=
  ofNat n.toNat

/-- A signed integer. -/
def ofInt (n : Int) : Json :=
  if n < 0 then .number (.negInt (Int64.ofInt n)) else ofNat n.toNat

end Json

end GeoMaster
