import GeoMaster.Domain.Json
import GeoMaster.Lib.Sha256

/-!
# Identifiers, time, errors and text

The values every part of the domain crate passes around: UUIDs and the identifiers built on them,
tenant scopes, instants, the error type, encrypted envelopes, and the text functions of the Rust
standard library the crate calls. Instants are counted in nanoseconds.
-/

namespace GeoMaster

/-! ### Identifiers -/

/-- A UUID, as its 128 bits. -/
structure Uuid where
  bits : BitVec 128
  deriving DecidableEq

namespace Uuid

/-- The nil UUID. -/
def nil : Uuid :=
  ⟨0⟩

/-- Whether a UUID is nil. -/
def isNil (u : Uuid) : Bool :=
  u = nil

/-- UUIDs are ordered by their bytes, so by their value. -/
instance : LT Uuid :=
  ⟨fun a b => a.bits < b.bits⟩

instance (a b : Uuid) : Decidable (a < b) :=
  inferInstanceAs (Decidable (a.bits < b.bits))

instance : LE Uuid :=
  ⟨fun a b => a.bits ≤ b.bits⟩

instance (a b : Uuid) : Decidable (a ≤ b) :=
  inferInstanceAs (Decidable (a.bits ≤ b.bits))

/-- The 32 hexadecimal digits, most significant first. -/
def hexDigits (u : Uuid) : List Char :=
  (List.range 32).map fun i => hexDigit (u.bits.toNat / 16 ^ (31 - i) % 16)

/-- The hyphenated lowercase text. -/
def toString (u : Uuid) : String :=
  let d := u.hexDigits
  String.ofList
    (d.take 8 ++ ['-'] ++ (d.drop 8).take 4 ++ ['-'] ++ (d.drop 12).take 4 ++ ['-']
      ++ (d.drop 16).take 4 ++ ['-'] ++ d.drop 20)

end Uuid

/-- An operator. -/
structure OperatorId where
  asUuid : Uuid
  deriving DecidableEq

/-- A tenant of an operator. -/
structure TenantId where
  asUuid : Uuid
  deriving DecidableEq

/-- A project of a tenant. -/
structure ProjectId where
  asUuid : Uuid
  deriving DecidableEq

/-- A tenant scope optionally narrowed to one project. -/
structure TenantScope where
  operatorId : OperatorId
  tenantId : TenantId
  projectId : Option ProjectId
  deriving DecidableEq

/-- A scope without a project sees all projects of its tenant. -/
def TenantScope.contains (scope candidate : TenantScope) : Bool :=
  scope.operatorId = candidate.operatorId ∧ scope.tenantId = candidate.tenantId
    ∧ ∀ project ∈ scope.projectId, candidate.projectId = some project

/-! ### Time -/

/-- An instant, in nanoseconds. -/
abbrev DateTime : Type :=
  Int

namespace DateTime

/-- Nanoseconds in a number of seconds. -/
def seconds (n : Int) : Int :=
  n * 1000000000

/-- Nanoseconds in a number of minutes. -/
def minutes (n : Int) : Int :=
  seconds (n * 60)

/-- Whole microseconds, rounded down. -/
def timestampMicros (t : DateTime) : Int :=
  Int.fdiv t 1000

end DateTime

/-! ### Errors -/

/-- Stable error classes exposed at the API boundary. -/
inductive ErrorCode where
  | invalidRequest
  | unauthorized
  | forbidden
  | notFound
  | conflict
  | notReady
  | capabilityMissing
  | dependencyUnavailable
  | internal
  deriving DecidableEq

/-- Error shape shared by domain operations and HTTP responses. -/
structure AppError where
  code : ErrorCode
  message : String
  details : Option Json
  deriving DecidableEq

namespace AppError

def new (code : ErrorCode) (message : String) : AppError :=
  { code, message, details := none }

def withDetails (e : AppError) (details : Json) : AppError :=
  { e with details := some details }

def invalidRequest (message : String) : AppError :=
  new .invalidRequest message

def notFound (message : String) : AppError :=
  new .notFound message

def unauthorized (message : String) : AppError :=
  new .unauthorized message

def forbidden (message : String) : AppError :=
  new .forbidden message

def conflict (message : String) : AppError :=
  new .conflict message

def notReady (message : String) : AppError :=
  new .notReady message

def capabilityMissing (message : String) : AppError :=
  new .capabilityMissing message

end AppError

/-- Opaque encrypted envelope. -/
structure ChannelSecret where
  encryptedBytes : List UInt8

/-! ### Text -/

namespace Text

/-- `char::is_whitespace`: the Unicode `White_Space` property. -/
def isWhitespace (c : Char) : Bool :=
  let n := c.toNat
  (9 ≤ n && n ≤ 13) || n == 0x20 || n == 0x85 || n == 0xA0 || n == 0x1680
    || (0x2000 ≤ n && n ≤ 0x200A) || n == 0x2028 || n == 0x2029 || n == 0x202F || n == 0x205F
    || n == 0x3000

/-- `char::is_control`: the Unicode category `Cc`. -/
def isControl (c : Char) : Bool :=
  let n := c.toNat
  n < 32 || (127 ≤ n && n ≤ 159)

/-- `str::trim`. -/
def trim (s : String) : String :=
  String.ofList (((s.toList.dropWhile isWhitespace).reverse.dropWhile isWhitespace).reverse)

/-- `str::trim_end`. -/
def trimEnd (s : String) : String :=
  String.ofList ((s.toList.reverse.dropWhile isWhitespace).reverse)

/-- `str::trim` leaves nothing. -/
def isBlank (s : String) : Bool :=
  s.toList.all isWhitespace

/-- `str::split_whitespace`. -/
def splitWhitespace (s : String) : List String :=
  ((s.toList.splitOnP isWhitespace).filter (· ≠ [])).map String.ofList

/-- `str::len`: the number of UTF-8 bytes. -/
def len (s : String) : Nat :=
  s.utf8ByteSize

/-- `str::starts_with`. -/
def startsWith (s pre : String) : Bool :=
  pre.toList.isPrefixOf s.toList

/-- `str::strip_prefix`. -/
def stripPrefix (s pre : String) : Option String :=
  if startsWith s pre then some (String.ofList (s.toList.drop pre.toList.length)) else none

/-- `u8::is_ascii_digit`. -/
def isAsciiDigit (c : Char) : Bool :=
  '0' ≤ c && c ≤ '9'

/-- `u8::is_ascii_hexdigit`. -/
def isAsciiHexdigit (c : Char) : Bool :=
  isAsciiDigit c || ('a' ≤ c && c ≤ 'f') || ('A' ≤ c && c ≤ 'F')

/-- The UTF-8 bytes. -/
def bytes (s : String) : List UInt8 :=
  s.toUTF8.data.toList

end Text

/-! ### Limits -/

def maxUploadBytes : Nat :=
  100 * 1024 * 1024

/-! ### Libraries outside the crate -/

/-- The SHA-256 digest of some bytes, in lowercase hexadecimal. -/
class Sha256 where
  hex : List UInt8 → String

/-- `sha256_hex`. -/
def sha256Hex [Sha256] (bytes : List UInt8) : String :=
  Sha256.hex bytes

/-- The value of a hexadecimal digit. -/
def hexValue (c : Char) : Nat :=
  if Text.isAsciiDigit c then c.toNat - 48
  else if 'a' ≤ c ∧ c ≤ 'f' then c.toNat - 87
  else if 'A' ≤ c ∧ c ≤ 'F' then c.toNat - 55
  else 0

/-- The reader of instants, as `chrono` parses them. -/
class InstantText where
  parse : String → Option DateTime

/-! ### Sample values -/

namespace Sample

/-- A UUID written as a number. -/
def uuid (n : Nat) : Uuid :=
  ⟨BitVec.ofNat 128 n⟩

/-- A scope with a project. -/
def scope : TenantScope :=
  { operatorId := ⟨uuid 1⟩, tenantId := ⟨uuid 2⟩, projectId := some ⟨uuid 3⟩ }

@[reducible] def secureHash : Sha256 :=
  ⟨SecureHash.sha256⟩

/-- A digest for runs that never ask for one. -/
@[reducible] def sha256 : Sha256 :=
  ⟨fun _ => ""⟩

end Sample

end GeoMaster
