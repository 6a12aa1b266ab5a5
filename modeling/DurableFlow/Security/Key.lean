import DurableFlow.Digest
import DurableFlow.Values.Invalid

/-!
# Digests, keys and certificates
-/

namespace DurableFlow

/-- A SHA-256 digest. -/
structure SecureHash where
  bytes : Bytes
  size : bytes.length = 32
  deriving DecidableEq

namespace SecureHash

theorem length_digest (m : Bytes) : (Sha256.digest m).length = 32 := by
  simp [Sha256.digest]

def of (m : Bytes) : SecureHash := ⟨Sha256.digest m, length_digest m⟩

def ofBytes? (bs : Bytes) : Option SecureHash :=
  if h : bs.length = 32 then some ⟨bs, h⟩ else none

def text (h : SecureHash) : String := Hex.upper h.bytes

/-- The first digits stand for the whole. -/
def brief (h : SecureHash) : String := s!"SecureHash({Hex.upper (h.bytes.take 6)})"

end SecureHash

inductive KeyAlgorithm where
  | ed25519
  | ecdsaSecp256r1
  | ecdsaSecp256k1
  | rsaSha256
  /-- A scheme known by its name only. -/
  | other (name : String)
  deriving DecidableEq

namespace KeyAlgorithm

def name : KeyAlgorithm → String
  | ed25519 => "EDDSA_ED25519_SHA512"
  | ecdsaSecp256r1 => "ECDSA_SECP256R1_SHA256"
  | ecdsaSecp256k1 => "ECDSA_SECP256K1_SHA256"
  | rsaSha256 => "RSA_SHA256"
  | other name => name

def ofName (name : String) : KeyAlgorithm :=
  if name = ed25519.name then ed25519
  else if name = ecdsaSecp256r1.name then ecdsaSecp256r1
  else if name = ecdsaSecp256k1.name then ecdsaSecp256k1
  else if name = rsaSha256.name then rsaSha256
  else other name

/-- The form used in diagnostics. -/
def label : KeyAlgorithm → String
  | ed25519 => "Ed25519"
  | ecdsaSecp256r1 => "EcdsaSecp256r1"
  | ecdsaSecp256k1 => "EcdsaSecp256k1"
  | rsaSha256 => "RsaSha256"
  | other name => s!"Other({Text.quoted name})"

end KeyAlgorithm

/-- The two halves of a key pair. -/
inductive KeyRole where
  | publicKey
  | privateKey
  deriving DecidableEq

def KeyRole.label : KeyRole → String
  | publicKey => "PublicKey"
  | privateKey => "PrivateKey"

structure Key (role : KeyRole) where
  algorithm : KeyAlgorithm
  encoded : Bytes
  deriving DecidableEq

namespace Key

variable {role : KeyRole}

def of (algorithm : KeyAlgorithm) (encoded : Bytes) : Except InvalidValue (Key role) :=
  if encoded = [] then .error (.key s!"empty {role.label} encoding") else .ok ⟨algorithm, encoded⟩

/-- A private key shows its algorithm only. -/
def brief (k : Key role) : String :=
  let shown := match role with
    | .publicKey => (SecureHash.of k.encoded).text
    | .privateKey => "<redacted>"
  s!"{role.label}({k.algorithm.name}, {shown})"

end Key

abbrev PublicKey := Key .publicKey

abbrev PrivateKey := Key .privateKey

/-- An X.509 certificate in DER form. -/
structure Certificate where
  der : Bytes
  deriving DecidableEq

namespace Certificate

def sequenceTag : UInt8 := 0x30

/-- The outermost structure has to be a sequence. -/
def ofDer (der : Bytes) : Except InvalidValue Certificate :=
  match der with
  | [] => .error (.certificate "empty encoding")
  | tag :: rest =>
    if tag = sequenceTag ∧ rest ≠ [] then .ok ⟨der⟩
    else .error (.certificate s!"expected SEQUENCE tag, found 0x{Hex.lower [tag]}")

def fingerprint (c : Certificate) : SecureHash := SecureHash.of c.der

/-- The type of a path of such certificates. -/
def pathType : String := "X.509"

def brief (c : Certificate) : String := s!"X509Certificate({c.fingerprint.text})"

end Certificate

end DurableFlow
