import Mathlib.Algebra.Order.Group.Int
import Mathlib.Algebra.Ring.Nat
import Mathlib.Data.List.Basic

/-! Shared-secret authentication (`shared_secret.rs`). -/

namespace NervesHub

/-- The two functions of `hmac` and `pbkdf2`, with SHA-256. -/
class Signing where
  hmac : (key message : List UInt8) → List UInt8
  pbkdf2 : (password salt : List UInt8) → (rounds keyLength : Nat) → List UInt8

def asBytes (s : String) : List UInt8 := s.toByteArray.data.toList

namespace SharedSecret

/-- The protected header of a `Plug.Crypto` token. -/
def protectedHeader : String := "SFMyNTY"

def defaultIterations : Nat := 1000
def defaultKeyLength : Nat := 32
def defaultMaxAgeSecs : Int64 := 86400

/-! ### Base64 -/

def alphabet : List Char := "ABCDEFGHIJKLMNOPQRSTUVWXYZabcdefghijklmnopqrstuvwxyz0123456789-_".toList

/-- `ALPHABET[i & 63]`. -/
def letter (i : Nat) : Char := alphabet.getD (i &&& 63) 'A'

/-- `bytes.chunks(3)`. -/
def chunks3 : List UInt8 → List (List UInt8)
  | x :: y :: z :: rest => [x, y, z] :: chunks3 rest
  | [] => []
  | short => [short]

def base64Chunk (chunk : List UInt8) : List Char :=
  let n := ((chunk.getD 0 0).toNat <<< 16) ||| ((chunk.getD 1 0).toNat <<< 8) ||| (chunk.getD 2 0).toNat
  [letter (n >>> 18), letter (n >>> 12)] ++ (if chunk.length > 1 then [letter (n >>> 6)] else []) ++
    (if chunk.length > 2 then [letter n] else [])

/-- URL-safe base64 without padding. -/
def base64url (bytes : List UInt8) : String := String.ofList ((chunks3 bytes).flatMap base64Chunk)

/-! ### The payload -/

/-- `to_be_bytes` of a `u32`. -/
def toBeBytes (n : Nat) : List UInt8 := [24, 16, 8, 0].map fun shift => UInt8.ofNat (n >>> shift)

/-- The digits of a number, the least significant first. -/
def digits (remaining : Nat) : List UInt8 :=
  if remaining > 0 then UInt8.ofNat (remaining &&& 0xFF) :: digits (remaining >>> 8) else []
termination_by remaining
decreasing_by
  rw [Nat.shiftRight_eq_div_pow]
  exact Nat.div_lt_self ‹_› (by decide)

/-- As `term_to_binary` writes it. -/
def encodeInteger (out : List UInt8) (value : Int64) : List UInt8 :=
  if 0 ≤ value.toInt ∧ value.toInt ≤ 255 then out ++ [97, UInt8.ofNat value.toInt.toNat]
  else if -2 ^ 31 ≤ value.toInt ∧ value.toInt ≤ 2 ^ 31 - 1 then out ++ [98] ++ toBeBytes value.toInt32.toUInt32.toNat
  else
    out ++ [110] ++ [UInt8.ofNat (digits value.toInt.natAbs).length] ++ [if value.toInt < 0 then 1 else 0] ++
      digits value.toInt.natAbs

/-- Erlang's external term format for `{identifier, signed_at_ms, max_age}`. -/
def payload (identifier : String) (signedAtMs maxAge : Int64) : List UInt8 :=
  let out : List UInt8 := [131, 104, 3]
  let out := out ++ [109] ++ toBeBytes (identifier.utf8ByteSize % 2 ^ 32) ++ asBytes identifier
  let out := encodeInteger out signedAtMs
  encodeInteger out maxAge

/-! ### Headers -/

/-- What the signing key is derived from repeats the other headers. -/
def salt (alg key : String) (signedAt : Int64) : String :=
  s!"NH1:device-socket:shared-secret:connect\n\nx-nh-alg=NH1-HMAC-{alg}\nx-nh-key={key}\nx-nh-time={signedAt}\n"

variable [Signing]

/-- Signs a payload the way `Plug.Crypto.MessageVerifier` does. -/
def token (signingKey payload : List UInt8) : String :=
  let plainText := protectedHeader ++ "." ++ base64url payload
  plainText ++ "." ++ base64url (Signing.hmac signingKey (asBytes plainText))

end SharedSecret

structure SharedSecret where
  key : String
  secret : String

namespace SharedSecret
variable [Signing]

def alg : String := s!"SHA256-{defaultIterations}-{defaultKeyLength}"

def derived (s : SharedSecret) (signedAt : Int64) : List UInt8 :=
  Signing.pbkdf2 (asBytes s.secret) (asBytes (salt alg s.key signedAt)) defaultIterations defaultKeyLength

/-- The headers of the websocket's handshake. In a release build the multiplication wraps. -/
def headers (s : SharedSecret) (identifier : String) (signedAt : Int64) : List (String × String) :=
  [("x-nh-alg", "NH1-HMAC-" ++ alg), ("x-nh-key", s.key), ("x-nh-time", toString signedAt),
    ("x-nh-signature", token (s.derived signedAt) (payload identifier (signedAt * 1000) defaultMaxAgeSecs))]

end SharedSecret

end NervesHub
