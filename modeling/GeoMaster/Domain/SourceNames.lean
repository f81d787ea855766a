import GeoMaster.Domain.Base

/-!
# Member names that stay out of a stored source

Which member names are private is stated twice: the runner has two patterns of words with an optional
separator between them, compared without case; the server strips every separator of a name and looks it
up.
-/

namespace GeoMaster

namespace SourceNames

/-- A character as `/iu` compares it: ASCII letters without case, and the two other characters that fold
to one of them. -/
def foldCase (c : Char) : Char :=
  if 'A' ≤ c && c ≤ 'Z' then Char.ofNat (c.toNat + 32)
  else if c.toNat = 0x17F then 's'
  else if c.toNat = 0x212A then 'k'
  else c

/-- `first[-_]?second`. -/
def joined (first second : String) : List String :=
  [first ++ second, first ++ "-" ++ second, first ++ "_" ++ second]

/-- The words of `privateKey`. -/
def privateWords : List String :=
  ["authorization", "cookie", "cookies", "password"] ++ joined "access" "token" ++ joined "refresh" "token" ++ joined
    "session" "token" ++ joined "session" "key" ++ joined "api" "key" ++ ["credential", "credentials", "proxy"]
    ++ joined "encrypted" "proxy" ++ joined "encrypted" "session" ++ ["email", "phone"] ++ joined "user" "id" ++ joined
    "account" "id"

/-- The words of `reasoningKey`. -/
def reasoningWords : List String :=
  ["think", "thinking", "reasoning"] ++ joined "reasoning" "content"

/-- A name as the patterns of the runner compare it. -/
def folded (key : String) : String :=
  String.ofList (key.toList.map foldCase)

/-- `privateKey.test(key) || reasoningKey.test(key)`. -/
def isPrivate (key : String) : Bool :=
  folded key ∈ privateWords ++ reasoningWords

/-- `key.to_ascii_lowercase().replace(['-', '_'], "")`. -/
def stripped (key : String) : String :=
  String.ofList ((key.toList.map Char.toLower).filter fun c => c ≠ '-' && c ≠ '_')

/-- The names that the server does not store. -/
def forbiddenWords : List String :=
  ["authorization", "cookie", "cookies", "password", "accesstoken", "refreshtoken", "sessiontoken",
    "sessionkey", "apikey", "credential", "credentials", "proxy", "encryptedproxy", "encryptedsession",
    "email", "phone", "userid", "accountid", "thinking", "reasoning", "reasoningcontent"]

def isForbidden (key : String) : Bool :=
  stripped key ∈ forbiddenWords

end SourceNames

end GeoMaster
