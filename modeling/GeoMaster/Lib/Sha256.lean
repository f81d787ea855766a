import Mathlib.Algebra.Order.Ring.Int
import Mathlib.Data.Nat.Bits

/-!
# SHA-256

The hash function on byte strings, written so that the kernel can run it: the message schedule is a window of
sixteen words packed into one number, and `force` evaluates a number before it is used again.
-/

namespace SecureHash

/-- Go on with the value of a number. -/
def force {α : Type} (n : Nat) (next : Nat → α) : α :=
  match n with
  | 0 => next 0
  | m + 1 => next (m + 1)

def rotateRight (x n : Nat) : Nat :=
  Nat.lor (Nat.shiftRight x n) (Nat.mod (Nat.shiftLeft x (32 - n)) 4294967296)

/-- The word of a window of sixteen, the oldest one first. -/
def wordAt (window i : Nat) : Nat :=
  Nat.mod (Nat.shiftRight window (32 * (15 - i))) 4294967296

/-- The word that comes after a window. -/
def nextWord (window : Nat) : Nat :=
  let w1 := wordAt window 1
  let w14 := wordAt window 14
  (wordAt window 0 + wordAt window 9 + Nat.xor (Nat.xor (rotateRight w1 7) (rotateRight w1 18)) (Nat.shiftRight w1 3)
    + Nat.xor (Nat.xor (rotateRight w14 17) (rotateRight w14 19)) (Nat.shiftRight w14 10)) % 4294967296

def roundConstants : List Nat :=
  [0x428a2f98, 0x71374491, 0xb5c0fbcf, 0xe9b5dba5, 0x3956c25b, 0x59f111f1, 0x923f82a4, 0xab1c5ed5,
    0xd807aa98, 0x12835b01, 0x243185be, 0x550c7dc3, 0x72be5d74, 0x80deb1fe, 0x9bdc06a7, 0xc19bf174,
    0xe49b69c1, 0xefbe4786, 0x0fc19dc6, 0x240ca1cc, 0x2de92c6f, 0x4a7484aa, 0x5cb0a9dc, 0x76f988da,
    0x983e5152, 0xa831c66d, 0xb00327c8, 0xbf597fc7, 0xc6e00bf3, 0xd5a79147, 0x06ca6351, 0x14292967,
    0x27b70a85, 0x2e1b2138, 0x4d2c6dfc, 0x53380d13, 0x650a7354, 0x766a0abb, 0x81c2c92e, 0x92722c85,
    0xa2bfe8a1, 0xa81a664b, 0xc24b8b70, 0xc76c51a3, 0xd192e819, 0xd6990624, 0xf40e3585, 0x106aa070,
    0x19a4c116, 0x1e376c08, 0x2748774c, 0x34b0bcb5, 0x391c0cb3, 0x4ed8aa4a, 0x5b9cca4f, 0x682e6ff3,
    0x748f82ee, 0x78a5636f, 0x84c87814, 0x8cc70208, 0x90befffa, 0xa4506ceb, 0xbef9a3f7, 0xc67178f2]

/-- One round for each constant. -/
def rounds : List Nat → Nat → Nat → Nat → Nat → Nat → Nat → Nat → Nat → Nat → List Nat
  | [], _, a, b, c, d, e, f, g, h => [a, b, c, d, e, f, g, h]
  | k :: rest, window, a, b, c, d, e, f, g, h =>
    force
      (h + Nat.xor (Nat.xor (rotateRight e 6) (rotateRight e 11)) (rotateRight e 25)
        + Nat.xor (Nat.land e f) (Nat.land (4294967295 - e) g) + k + wordAt window 0) fun t =>
      force
        ((t + Nat.xor (Nat.xor (rotateRight a 2) (rotateRight a 13)) (rotateRight a 22)
          + Nat.xor (Nat.xor (Nat.land a b) (Nat.land a c)) (Nat.land b c)) % 4294967296) fun a' =>
        force ((d + t) % 4294967296) fun e' =>
          force (Nat.mod (Nat.shiftLeft window 32) (2 ^ 512) + nextWord window) fun window' =>
            rounds rest window' a' a b c e' e f g

def addWords : List Nat → List Nat → List Nat
  | x :: xs, y :: ys => force ((x + y) % 4294967296) fun z => z :: addWords xs ys
  | _, _ => []

/-- The state after one block of the message. -/
def compress (state : List Nat) (block : Nat) : List Nat :=
  match state with
  | [a, b, c, d, e, f, g, h] => addWords state (rounds roundConstants block a b c d e f g h)
  | _ => state

/-- The state after the last blocks of a padded message. -/
def compressBlocks (message : Nat) : Nat → List Nat → List Nat
  | 0, state => state
  | n + 1, state => compressBlocks message n (compress state (Nat.mod (Nat.shiftRight message (512 * n)) (2 ^ 512)))

def initialState : List Nat :=
  [0x6a09e667, 0xbb67ae85, 0x3c6ef372, 0xa54ff53a, 0x510e527f, 0x9b05688c, 0x1f83d9ab, 0x5be0cd19]

/-- The low hexadecimal digits of a number. -/
def hexDigits (n : Nat) : Nat → List Char
  | 0 => []
  | i + 1 => Nat.digitChar (n / 16 ^ i % 16) :: hexDigits n i

/-- The digest in lowercase hexadecimal. -/
def sha256 (bytes : List UInt8) : String :=
  let length := bytes.length
  let count := (length + 72) / 64
  let padding := 8 * (64 * count - length - 1)
  let text := bytes.foldl (fun n b => n * 256 + b.toNat) 0
  let message := Nat.shiftLeft (text * 256 + 128) padding + 8 * length
  .ofList ((compressBlocks message count initialState).flatMap fun word => hexDigits word 8)

example : sha256 [97, 98, 99] = "ba7816bf8f01cfea414140de5dae2223b00361a396177a9cb410ff61f20015ad" := by
  decide +kernel

/-! ### Plain texts

The characters of a plain text are its bytes, so its digest need not go through its encoding.
-/

/-- The bytes of plain characters as one number. -/
def plainNumber : List Char → Nat → Nat
  | [], n => n
  | c :: rest, n => force (n * 256 + c.toNat) fun m => plainNumber rest m

/-- The digits of the digest of a plain text, from its characters. -/
def plainDigits (chars : List Char) : List Char :=
  let length := chars.length
  let count := (length + 72) / 64
  let padding := 8 * (64 * count - length - 1)
  let message := Nat.shiftLeft (plainNumber chars 0 * 256 + 128) padding + 8 * length
  (compressBlocks message count initialState).flatMap fun word => hexDigits word 8

theorem force_eq {α : Type} (n : Nat) (next : Nat → α) : force n next = next n := by
  cases n <;> rfl

variable {chars : List Char} {state : List Nat}

theorem utf8_plain (h : ∀ c ∈ chars, c.toNat < 128) :
    (String.ofList chars).toUTF8.data.toList = chars.map fun c => c.val.toUInt8 := by
  have hencode : chars.flatMap String.utf8EncodeChar = chars.map fun c => c.val.toUInt8 := by
    induction chars with
    | nil => rfl
    | cons c rest ih =>
      have hsize : c.utf8Size = 1 := by
        rw [Char.utf8Size_eq_one_iff, UInt32.le_iff_toNat_le]
        exact Nat.le_of_lt_succ (h c List.mem_cons_self)
      rw [List.flatMap_cons, String.utf8EncodeChar_eq_singleton hsize, ih fun d hd => h d (List.mem_cons_of_mem c hd)]
      rfl
  have hbytes : (String.ofList chars).toUTF8.data.toList = chars.flatMap String.utf8EncodeChar := by
    simp [String.toUTF8, List.utf8Encode]
  rw [hbytes, hencode]

theorem foldl_plain (h : ∀ c ∈ chars, c.toNat < 128) (n : Nat) :
    (chars.map fun c => c.val.toUInt8).foldl (fun n b => n * 256 + b.toNat) n = plainNumber chars n := by
  induction chars generalizing n with
  | nil => rfl
  | cons c rest ih =>
    have hlt : c.toNat < 128 := h c List.mem_cons_self
    have hbyte : c.val.toUInt8.toNat = c.toNat := by
      rw [UInt32.toNat_toUInt8]
      exact Nat.mod_eq_of_lt (by show c.toNat < 256; omega)
    rw [List.map_cons, List.foldl_cons, hbyte, ih fun d hd => h d (List.mem_cons_of_mem c hd), plainNumber, force_eq]

theorem sha256_plain (h : ∀ c ∈ chars, c.toNat < 128) :
    sha256 (String.ofList chars).toUTF8.data.toList = .ofList (plainDigits chars) := by
  rw [utf8_plain h]
  unfold sha256 plainDigits
  rw [foldl_plain h, List.length_map]
/-! ### The form of a digest -/

theorem length_hexDigits (n count : Nat) : (hexDigits n count).length = count := by
  induction count with
  | zero => rfl
  | succ count ih => rw [hexDigits, List.length_cons, ih]

theorem mem_hexDigits {n count : Nat} {c : Char} (h : c ∈ hexDigits n count) :
    ∃ digit, digit < 16 ∧ c = Nat.digitChar digit := by
  induction count with
  | zero => cases h
  | succ count ih =>
    rw [hexDigits, List.mem_cons] at h
    rcases h with h | h
    · exact ⟨n / 16 ^ count % 16, Nat.mod_lt _ (by omega), h⟩
    · exact ih h

theorem length_rounds (constants : List Nat) (window a b c d e f g h : Nat) :
    (rounds constants window a b c d e f g h).length = 8 := by
  induction constants generalizing window a b c d e f g h with
  | nil => rfl
  | cons k rest ih =>
    simp only [rounds, force_eq]
    exact ih ..

theorem length_addWords (xs ys : List Nat) : (addWords xs ys).length = min xs.length ys.length := by
  induction xs generalizing ys with
  | nil => simp [addWords]
  | cons x xs ih =>
    cases ys with
    | nil => simp [addWords]
    | cons y ys =>
      simp only [addWords, force_eq, List.length_cons, ih]
      omega

theorem length_compress (h : state.length = 8) (block : Nat) : (compress state block).length = 8 := by
  unfold compress
  split
  · rw [length_addWords, length_rounds, h, Nat.min_self]
  · exact h

theorem length_compressBlocks (message count : Nat) (h : state.length = 8) :
    (compressBlocks message count state).length = 8 := by
  induction count generalizing state with
  | zero => exact h
  | succ count ih => exact ih (length_compress h _)

theorem digits_sha256 (bytes : List UInt8) :
    (sha256 bytes).toList.length = 64 ∧ ∀ c ∈ (sha256 bytes).toList, ∃ digit, digit < 16 ∧ c = Nat.digitChar digit := by
  have hwords : ∀ words : List Nat, (words.flatMap fun word => hexDigits word 8).length = 8 * words.length := by
    intro words
    induction words with
    | nil => rfl
    | cons word words ih =>
      rw [List.flatMap_cons, List.length_append, length_hexDigits, ih, List.length_cons]
      omega
  unfold sha256
  simp only [String.toList_ofList]
  constructor
  · rw [hwords, length_compressBlocks]
    rfl
  · intro c hc
    obtain ⟨word, -, hword⟩ := List.mem_flatMap.mp hc
    exact mem_hexDigits hword

end SecureHash
