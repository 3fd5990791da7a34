import Mathlib.Data.List.DropRight
import NervesHubLink.Error
import NervesHubLink.SharedSecret

/-! How the device proves who it is (`config.rs`). -/

namespace NervesHub

/-- `CStr`: bytes with no NUL among them. -/
structure CStr where
  bytes : List UInt8
  noNul : 0 ∉ bytes
  deriving DecidableEq

/-- `CString::new`. -/
def CStr.new (bytes : List UInt8) : Option CStr := if h : 0 ∈ bytes then none else some ⟨bytes, h⟩

def CStr.toBytesWithNul (c : CStr) : List UInt8 := c.bytes ++ [0]

inductive Credentials where
  | clientCertificate (certificate privateKey : CStr)
  | sharedSecret (identifier : String) (secret : SharedSecret)

/-- Takes the last byte away while it is a NUL. -/
def stripNuls (bytes : List UInt8) : List UInt8 := bytes.rdropWhile (· == 0)

/-- Prepares a PEM for mbedTLS, which reads it as a C string. -/
def leakPem (bytes : List UInt8) (what : String) : Except Error CStr :=
  if bytes.isEmpty then .error (.identity s!"{what} is empty")
  else
    match CStr.new (stripNuls bytes) with
    | some cstring => .ok cstring
    | none => .error (.identity s!"{what} contains a NUL byte")

def clientCertificate (certificate privateKey : List UInt8) : Except Error Credentials := do
  let certificate ← leakPem certificate "certificate"
  let privateKey ← leakPem privateKey "private key"
  pure (.clientCertificate certificate privateKey)

end NervesHub
