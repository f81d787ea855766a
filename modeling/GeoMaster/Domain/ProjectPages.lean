import GeoMaster.Domain.Projects

/-!
# Pages of projects

Projects are listed by the instant of their creation and their identifier, a page at a time. A cursor is the
creation of the last project of a page in milliseconds, and its identifier, as a text.
-/

namespace GeoMaster

open Except Text

/-- Whole milliseconds, rounded down. -/
def DateTime.timestampMillis (t : DateTime) : Int :=
  Int.fdiv t 1000000

/-! ### Numbers and identifiers as text -/

/-- `str::split_once`, at a character. -/
def Text.splitOnce (text : String) (separator : Char) : Option (String × String) :=
  match text.toList.dropWhile (· ≠ separator) with
  | _ :: rest => some (String.ofList (text.toList.takeWhile (· ≠ separator)), String.ofList rest)
  | [] => none

/-- Decimal digits, at least one. -/
def Text.decimal (digits : List Char) : Option Nat :=
  if digits ≠ [] ∧ digits.all isAsciiDigit = true then
    some (digits.foldl (fun n c => 10 * n + (c.toNat - 48)) 0)
  else none

/-- `i64::from_str`. -/
def Text.parseI64 (text : String) : Option Int :=
  let number : Option Int :=
    match text.toList with
    | '-' :: digits => (decimal digits).map fun n => -(n : Int)
    | '+' :: digits => (decimal digits).map (↑·)
    | digits => (decimal digits).map (↑·)
  number.filter fun n => -(2 ^ 63) ≤ n ∧ n < 2 ^ 63

namespace Uuid

/-- The 32 hexadecimal digits of an identifier. -/
def ofHexDigits (digits : List Char) : Option Uuid :=
  if digits.length = 32 ∧ digits.all isAsciiHexdigit = true then
    some ⟨BitVec.ofNat 128 (digits.foldl (fun n c => 16 * n + hexValue c) 0)⟩
  else none

/-- Groups of 8, 4, 4, 4 and 12 digits with hyphens between them. -/
def ofHyphenated (chars : List Char) : Option Uuid :=
  if chars.length = 36 ∧ [8, 13, 18, 23].all (fun i => chars[i]? = some '-') = true then
    ofHexDigits (chars.take 8 ++ (chars.drop 9).take 4 ++ (chars.drop 14).take 4
      ++ (chars.drop 19).take 4 ++ chars.drop 24)
  else none

/-- `Uuid::from_str`: plain, hyphenated, in braces, or as a name. -/
def fromStr (text : String) : Option Uuid :=
  match text.toList.length with
  | 32 => ofHexDigits text.toList
  | 36 => ofHyphenated text.toList
  | 38 =>
    if text.toList.head? = some (Char.ofNat 123) ∧ text.toList.getLast? = some (Char.ofNat 125) then
      ofHyphenated (text.toList.drop 1).dropLast
    else none
  | 45 => if startsWith text "urn:uuid:" then ofHyphenated (text.toList.drop 9) else none
  | _ => none

end Uuid

/-! ### Cursors -/

def formatCursor (project : Project) : String :=
  s!"{project.createdAt.timestampMillis}:{project.id.asUuid.toString}"

def parseCursor (value : String) : Except AppError (Int × Uuid) := do
  let (timestamp, id) ← okOr (splitOnce value ':') (.invalidRequest "cursor must be timestamp:id")
  let timestamp ← okOr (parseI64 timestamp) (.invalidRequest "cursor timestamp is invalid")
  let id ← okOr (Uuid.fromStr id) (.invalidRequest "cursor project id is invalid")
  pure (timestamp, id)

/-! ### Pages -/

/-- The order of a listing: by creation, then by identifier. -/
def Project.ListedBefore (left right : Project) : Prop :=
  left.createdAt < right.createdAt ∨ (left.createdAt = right.createdAt ∧ left.id.asUuid ≤ right.id.asUuid)

instance (left right : Project) : Decidable (left.ListedBefore right) :=
  inferInstanceAs (Decidable (_ ∨ _))

/-- A project behind a cursor. -/
def Project.behind (cursor : Int × Uuid) (project : Project) : Bool :=
  cursor.1 < project.createdAt.timestampMillis
    ∨ (cursor.1 = project.createdAt.timestampMillis ∧ cursor.2 < project.id.asUuid)

structure ProjectPage where
  items : List Project
  nextCursor : Option String

namespace MemoryProjectRepository

open Op

/-- The projects a scope sees, in order. -/
def list (scope : TenantScope) (s : MemoryProjectRepository) : List Project :=
  ((AssocMap.values s.state.projects).filter fun project =>
    scope.seesProject project project.id).insertionSort Project.ListedBefore

def listPage (scope : TenantScope) (limit : Nat) (cursor : Option String) : ProjectOp ProjectPage := do
  failIf (¬ (1 ≤ limit ∧ limit ≤ 100)) (.invalidRequest "limit must be between 1 and 100")
  failIf (cursor = some "") (.invalidRequest "cursor must not be empty")
  let cursor ← lift (cursor.mapM parseCursor)
  let listed ← read (list scope)
  let sorted := listed.insertionSort Project.ListedBefore
  let projects := sorted.filter fun project => cursor.all fun cursor => project.behind cursor
  let items := projects.take limit
  pure
    { items
      nextCursor := if limit < projects.length then items.getLast?.map formatCursor else none }

end MemoryProjectRepository

end GeoMaster
