import CMsgQueue.Server.Password

/-!
# Authentication of a CONNECT

The authentication block of `handle_frame` for a server with a username, a password or both,
without JWT and nkey.  The block compares buffers of fixed sizes; a compare that leaves one of
them is seen, and it ends the run of the model.
-/

namespace CMsgQueue.Server

/-- `CMQ_JWT_TOKEN_MAX`. -/
def cmqJwtTokenMax : Nat := 2048

/-- `auth_username` and `auth_password` of the configuration, as C strings; the empty one
stands for a null pointer too. -/
structure AuthConfig where
  authUsername : Bytes
  authPassword : Bytes
  username_plain : 0 ∉ authUsername
  password_plain : 0 ∉ authPassword

def padded (size : Nat) (text : Bytes) : Bytes := text ++ List.replicate (size - text.length) 0

def cString (buffer : Bytes) : Bytes := buffer.takeWhile (· != 0)

/-- `ct_memeq`; `none` is a read behind the end of a buffer. -/
def ctMemeq (x y : Bytes) (n : Nat) : Option Bool :=
  if n ≤ x.length ∧ n ≤ y.length then some (x.take n == y.take n) else none

structure Presented where
  malformed : Bool
  uname : Bytes
  passwd : Bytes
  deriving DecidableEq

/-- `pass_max` without JWT and nkey. -/
def passMax : Nat := 255

/-- The credentials in a payload, with lengths in front of both. -/
def presented (payload : Bytes) : Presented :=
  if payload.length < 4 then ⟨true, [], []⟩
  else
    let ulen := getBe (payload.take 2)
    let plen := getBe ((payload.drop 2).take 2)
    if 4 + ulen + plen > payload.length ∨ ulen ≥ 256 ∨ plen > passMax then ⟨true, [], []⟩
    else ⟨false, (payload.drop 4).take ulen, (payload.drop (4 + ulen)).take plen⟩

/-- How the block ends. -/
inductive AuthResult where
  | accepted (username : Bytes)
  /-- A CONNACK with a code, and the client is closing. -/
  | refused (code : Nat)
  /-- Memory was read that is not part of any buffer. -/
  | outside
  deriving DecidableEq

/-- `auth_password` is a hash. -/
def AuthConfig.hashed (config : AuthConfig) : Bool := config.authPassword.head? == some 36

/-- The two compares and the decision, with `f8_hashed_fail` and `expect_p`. -/
def authCompare (config : AuthConfig) (shown : Presented) (hashedFail : Bool) (expectP : Bytes) :
    AuthResult :=
  let uname := padded 256 shown.uname
  let passwd := padded (cmqJwtTokenMax + 1) shown.passwd
  let expectU := padded 256 (config.authUsername.take 255)
  let needUser := config.authUsername ≠ []
  let needPass := config.authPassword ≠ []
  match ctMemeq uname (if needUser then expectU else uname) uname.length,
      ctMemeq passwd (if needPass then expectP else passwd) passwd.length with
  | some sameUser, some samePass =>
    if shown.malformed || hashedFail || !sameUser || !samePass then
      .refused (if shown.malformed then 1 else 2)
    else .accepted (if needUser then cString uname else [])
  | _, _ => .outside

/-- The authentication block of `handle_frame`, for a payload. -/
def authBlock (scrypt : Scrypt) (config : AuthConfig) (payload : Bytes) : AuthResult :=
  let shown := presented payload
  if config.hashed then
    match cmqPasswordVerify scrypt config.authPassword (cString shown.passwd) with
    | none => .outside
    | some v =>
      if v < 0 then .refused 1
      -- `expect_p` keeps its zeros
      else authCompare config shown (v == 0) (padded 256 [])
  else authCompare config shown false (padded 256 (config.authPassword.take 255))

@[simp] lemma length_padded (fits : text.length ≤ size) : (padded size text).length = size := by
  simp [padded, fits]

lemma length_presented (payload : Bytes) :
    (presented payload).uname.length ≤ 255 ∧ (presented payload).passwd.length ≤ 255 := by
  rw [presented]
  split
  · decide
  dsimp only
  split
  · decide
  rename_i fits
  simp only [passMax, List.length_take] at fits ⊢
  omega

variable {config : AuthConfig}

/-- The buffer for the password is longer than the one for the expected password, and the
compare runs over the longer. -/
lemma authCompare_password (password : config.authPassword ≠ []) (payload : Bytes)
    (hashedFail : Bool) (size : expectP.length = 256) :
    authCompare config (presented payload) hashedFail expectP = .outside := by
  have fits : (presented payload).passwd.length ≤ cmqJwtTokenMax + 1 :=
    Nat.le_trans (length_presented payload).2 (by decide)
  have shorter :
      expectP.length < (padded (cmqJwtTokenMax + 1) (presented payload).passwd).length := by
    rw [size, length_padded fits]
    decide
  simp only [authCompare, if_pos password, ctMemeq, le_refl, true_and, if_neg (not_le.mpr shorter)]
  split
  case h_1 read =>
    cases read
  case h_2 => rfl

/-- Credentials were presented, and they are the configured ones: the username, if one is
configured, and the password, or one whose hash is stored. -/
def CredentialsMatch (scrypt : Scrypt) (config : AuthConfig) (payload : Bytes) : Prop :=
  let shown := presented payload
  shown.malformed = false ∧
    (config.authUsername ≠ [] → shown.uname = config.authUsername) ∧
    if config.hashed then
      cmqPasswordVerify scrypt config.authPassword (cString shown.passwd) = some 1
    else shown.passwd = config.authPassword

/-- The block stays inside its buffers, and it accepts the configured credentials only. -/
def AuthSound (scrypt : Scrypt) (config : AuthConfig) (payload : Bytes) : Prop :=
  authBlock scrypt config payload ≠ .outside ∧
    ((∃ username, authBlock scrypt config payload = .accepted username) ↔
      CredentialsMatch scrypt config payload)

/-- The stored text is a hash that cannot be checked, so that the block ends before the
compares. -/
def HashUnusable (scrypt : Scrypt) (config : AuthConfig) (payload : Bytes) : Prop :=
  config.hashed ∧ ∃ v < 0,
    cmqPasswordVerify scrypt config.authPassword (cString (presented payload).passwd) = some v

/-- Every other run with a password reads behind `expect_p`, whatever is presented. -/
lemma authBlock_outside (password : config.authPassword ≠ [])
    (usable : ¬ HashUnusable scrypt config payload) :
    authBlock scrypt config payload = .outside := by
  have expected : (config.authPassword.take 255).length ≤ 256 :=
    Nat.le_trans (List.length_take_le _ _) (by decide)
  rw [authBlock]
  cases hashed : config.hashed with
  | false => exact authCompare_password password payload false (length_padded expected)
  | true =>
    cases verify :
        cmqPasswordVerify scrypt config.authPassword (cString (presented payload).passwd) with
    | none => rfl
    | some v =>
      have checked : ¬ v < 0 := fun negative => usable ⟨hashed, v, negative, verify⟩
      simp only [if_neg checked]
      exact authCompare_password password payload (v == 0) (length_padded (by decide))

/-- With a password configured, the block is sound only where it ends before its compares. -/
theorem authSound_iff (scrypt : Scrypt) {config : AuthConfig} (password : config.authPassword ≠ [])
    (payload : Bytes) : AuthSound scrypt config payload ↔ HashUnusable scrypt config payload := by
  constructor
  · rintro ⟨inside, -⟩
    by_contra usable
    exact inside (authBlock_outside password usable)
  intro unusable
  have ends : authBlock scrypt config payload = .refused 1 := by
    obtain ⟨hashed, v, negative, verify⟩ := unusable
    simp only [authBlock, hashed, if_true, verify, if_pos negative]
  refine ⟨by simp [ends], ?_⟩
  constructor
  · rintro ⟨_, accepted⟩
    rw [ends] at accepted
    cases accepted
  rintro ⟨-, -, verified⟩
  obtain ⟨hashed, v, _, verify⟩ := unusable
  rw [if_pos hashed, verify, Option.some.injEq] at verified
  omega

/-- A stored text that only begins like a hash. -/
theorem authSound_iff_unusable :
    AuthSound (fun _ _ _ _ _ _ => none) ⟨cstr "app", cstr "$x", by decide, by decide⟩
      [0, 3, 0, 1, 97, 112, 112, 120] :=
  (authSound_iff _ (by decide) _).2 ⟨by decide, -1, by decide, by decide⟩

/-- The configured credentials themselves are compared with memory behind a buffer. -/
theorem authBlock_reads_outside :
    ¬ AuthSound (fun _ _ _ _ _ _ => none) ⟨cstr "app", cstr "pw", by decide, by decide⟩
      [0, 3, 0, 2, 97, 112, 112, 112, 119] := by
  intro sound
  exact sound.1 (authBlock_outside (by decide) (fun unusable => absurd unusable.1 (by decide)))

end CMsgQueue.Server
