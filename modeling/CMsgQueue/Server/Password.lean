import CMsgQueue.Lib.Bytes

/-!
# Stored passwords

`server/cmq_password.c`: `cmq_password_verify` and the base64url decoder under it.  Key
derivation belongs to a library and is a parameter.  A read outside of an array gives `none`.
-/

namespace CMsgQueue.Server

/-- `EVP_PBE_scrypt`: from the password, the salt, `N`, `r`, `p` and the length of the key to
the derived key, if it returns 1. -/
abbrev Scrypt := (password salt : Bytes) → (n r p len : Nat) → Option Bytes

/-- The entries of `tab` of `b64url_decode`, from 0 to 127. -/
def b64urlTab (i : Nat) : Option Nat :=
  if 65 ≤ i ∧ i ≤ 90 then some (i - 65)
  else if 97 ≤ i ∧ i ≤ 122 then some (i - 97 + 26)
  else if 48 ≤ i ∧ i ≤ 57 then some (i - 48 + 52)
  else if i = 45 then some 62
  else if i = 95 then some 63
  else none

/-- The value of a character.  A `char` is signed, so that a byte above 127 passes the test
`in[i] >= 128` and is a negative index into `tab`.  The inner `none` is the entry -1. -/
def b64urlValue (byte : UInt8) : Option (Option Nat) :=
  if byte.toNat < 128 then some (b64urlTab byte.toNat) else none

def b64urlBlock (v0 v1 v2 v3 : Nat) : Bytes :=
  let v := v0 * 2 ^ 18 + v1 * 2 ^ 12 + v2 * 2 ^ 6 + v3
  [UInt8.ofNat (v / 2 ^ 16), UInt8.ofNat (v / 2 ^ 8), UInt8.ofNat v]

/-- The loop of `b64url_decode` over whole blocks; the inner `none` is the return value -1. -/
def b64urlBlocks : Bytes → Option (Option Bytes)
  | c0 :: c1 :: c2 :: c3 :: rest => do
      match ← b64urlValue c0 with
      | none => return none
      | some v0 =>
        let v1 ← b64urlValue c1
        let v2 ← b64urlValue c2
        let v3 ← b64urlValue c3
        let block := b64urlBlock v0 (v1.getD 0) (v2.getD 0) (v3.getD 0)
        return (← b64urlBlocks rest).map (block ++ ·)
  | _ => some (some [])

/-- `b64url_decode`.  The last block always has four characters, so nothing is cut off. -/
def b64urlDecode (input : Bytes) (outCap : Nat) : Option (Option Bytes) :=
  if input.length = 0 ∨ input.length % 4 ≠ 0 then some none
  else if input.length / 4 * 3 > outCap then some none
  else b64urlBlocks input

/-- `isspace` of the C locale. -/
def isSpace (byte : UInt8) : Bool := byte == 32 || (9 ≤ byte && byte ≤ 13)

/-- `isdigit`. -/
def isDigit (byte : UInt8) : Bool := 48 ≤ byte && byte ≤ 57

/-- `strtoull` in base 10: the number, and the text behind it. -/
def strtoull (text : Bytes) : Nat × Bytes :=
  let signed := text.dropWhile isSpace
  let digits := if signed.head? = some 43 ∨ signed.head? = some 45 then signed.tail else signed
  let number := digits.takeWhile isDigit
  if number = [] then (0, text)
  else
    let value := number.foldl (fun value byte => value * 10 + (byte.toNat - 48)) 0
    let rest := digits.dropWhile isDigit
    if value ≥ 2 ^ 64 then (2 ^ 64 - 1, rest)
    else if signed.head? = some 45 then ((2 ^ 64 - value) % 2 ^ 64, rest)
    else (value, rest)

/-- The text behind a literal, which `strncmp` looks for. -/
def behind (literal text : Bytes) : Option Bytes :=
  if literal.isPrefixOf text then some (text.drop literal.length) else none

/-- What a stored hash is taken apart into. -/
structure ScryptHash where
  n : Nat
  r : Nat
  p : Nat
  saltLen : Nat
  hashLen : Nat
  saltB64 : Bytes
  hashB64 : Bytes
  deriving DecidableEq

/-- The parameters of a stored hash, and its two encoded parts; `none` is the return value
-1. -/
def parseScrypt (stored : Bytes) : Option ScryptHash := do
  let pos ← behind (cstr "$scrypt$") stored
  let (n, rest) := strtoull (← behind (cstr "N=") pos)
  let (r, rest) := strtoull (← behind (cstr ",r=") rest)
  let (p, rest) := strtoull (← behind (cstr ",p=") rest)
  let (saltLen, rest) := strtoull (← behind (cstr ",salt_len=") rest)
  let (hashLen, rest) := strtoull (← behind (cstr ",hash_len=") rest)
  let encoded ← behind (cstr "$") rest
  let saltB64 := encoded.takeWhile (· != 36)
  let hashB64 ← behind (cstr "$") (encoded.drop saltB64.length)
  if saltB64.length = 0 ∨ saltB64.length ≥ 64 then none
  else some ⟨n, r, p, saltLen, hashLen, saltB64, hashB64⟩

def sameKey (computed hash : Bytes) (hashLen : Nat) : Bool :=
  (List.range hashLen).all fun i => computed.getD i 0 == hash.getD i 0

/-- The part of `cmq_password_verify` behind the parameters. -/
def verifyScrypt (scrypt : Scrypt) (parsed : ScryptHash) (password : Bytes) : Option Int := do
  match ← b64urlDecode parsed.saltB64 64 with
  | none => return -1
  | some salt =>
    match ← b64urlDecode parsed.hashB64 64 with
    | none => return -1
    | some hash =>
      if salt.length < parsed.saltLen ∨ hash.length < parsed.hashLen then return -1
      else if parsed.hashLen > 64 then return -1
      else
        match scrypt password (salt.take parsed.saltLen) parsed.n parsed.r parsed.p
          parsed.hashLen with
        | none => return -1
        | some computed => return if sameKey computed hash parsed.hashLen then 1 else 0

/-- `cmq_password_verify` of two C strings; `none` is a read outside of `tab`. -/
def cmqPasswordVerify (scrypt : Scrypt) (stored password : Bytes) : Option Int :=
  match behind (cstr "$plaintext$") stored with
  | some legacy => some (if legacy = password then 1 else 0)
  | none =>
    match parseScrypt stored with
    | none => some (-1)
    | some parsed => verifyScrypt scrypt parsed password

end CMsgQueue.Server
