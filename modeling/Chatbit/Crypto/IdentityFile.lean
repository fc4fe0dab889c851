import Chatbit.Crypto.RatchetStorage
import Chatbit.Lib.AtomicFile
import Chatbit.Lib.Json

/-!
# The identity file

`Identity.save` and `Identity.load` down to the text of the file, and how a command decides on the
passphrase and gets its identity (`load_identity`), with the file system, the terminal and the
random numbers as inputs. A command may be killed at any step of writing the file.
-/

namespace Chatbit

open Lib

variable {X E F : Type}

/-! ## Keys and passphrases -/

/-- What the identity file is made with, besides the AEAD. -/
structure KeyStorage (X E : Type) where
  /-- `Scrypt(salt=salt, length=32, n=2**15, r=8, p=1).derive(passphrase)` -/
  scryptDerive : (passphrase salt : Bytes UInt8) → Bytes UInt8
  x25519 : KeyFormat X
  ed25519 : KeyFormat E

/-- The documented behaviour of the package. -/
structure KeyStorage.Correct (K : KeyStorage X E) : Prop where
  length_scryptDerive : ∀ passphrase salt, (K.scryptDerive passphrase salt).length = KEYLEN
  x25519 : K.x25519.Correct
  ed25519 : K.ed25519.Correct

/-- `load_ed25519_private`, with its length check. -/
def loadEd25519Private (K : KeyFormat E) (raw : Bytes UInt8) : Option E :=
  if raw.length ≠ 32 then none else some (K.fromPrivateBytes raw)

/-- `raw.decode()`; `none` is `UnicodeDecodeError`. -/
def decodeStrict (raw : Bytes UInt8) : Option String :=
  if encodeUtf8 (decodeReplace raw) = raw then some (decodeReplace raw) else none

/-- What reading an identity file raises. -/
inductive LoadError where
  | trustError (msg : String)
  | jsonDecodeError
  | unicodeError
  | keyError (key : String)
  | valueError
  /-- `TypeError`, or `AttributeError` -/
  | typeError
  | primitive (exc : Exc UInt8)
deriving DecidableEq

/-- `option.getD` with an exception. -/
def LoadError.orRaise {α : Type} (e : LoadError) : Option α → Except LoadError α
  | some a => .ok a
  | none => .error e

/-- The associated data of the AEAD. -/
def IDENTITY_AD : Bytes UInt8 := ascii "chatbit-identity"

/-! ## Reading JSON values -/

/-- `data[key]` -/
def Lib.Json.field (data : Json F) (key : String) : Except LoadError (Json F) :=
  match data with
  | .obj fields => (LoadError.keyError key).orRaise (Json.get? fields key)
  | _ => .error .typeError

/-- `data.get(key)` -/
def Lib.Json.getKey (data : Json F) (key : String) : Except LoadError (Option (Json F)) :=
  match data with
  | .obj fields => .ok (Json.get? fields key)
  | _ => .error .typeError

/-- `bytes.fromhex(data[key])` -/
def Lib.Json.hexField (data : Json F) (key : String) : Except LoadError (Bytes UInt8) := do
  match ← data.field key with
  | .str s => LoadError.valueError.orRaise ((ofCodePoints s).bind fun text => fromHex text.toList)
  | _ => .error .typeError

/-- `v == text` -/
def Lib.Json.isText (v : Option (Json F)) (text : String) : Bool :=
  match v with
  | some (.str s) => s = codePoints text
  | _ => false

namespace Identity

variable (P : Primitives UInt8 X E) (K : KeyStorage X E) (J : FloatFormat F)

/-! ## Saving -/

/-- The dictionary that is the body of the file. -/
def bodyJson (identity : Identity X E) : Json F :=
  .object [("nickname", .str (codePoints identity.nickname)),
    ("signing_private", .str (codePoints (hex (K.ed25519.privateBytes identity.signingPrivate)))),
    ("static_private", .str (codePoints (hex (K.x25519.privateBytes identity.staticPrivate))))]

/-- `json.dumps(..)` of the body. -/
def bodyText (identity : Identity X E) : String :=
  String.ofList (Json.dumps J none (identity.bodyJson K))

/-- The `blob` of a file that a passphrase protects. -/
def lockedJson (salt nonce ct : Bytes UInt8) : Json F :=
  .object [("v", .int 1), ("enc", .str (codePoints "scrypt-chacha20poly1305")),
    ("salt", .str (codePoints (hex salt))), ("nonce", .str (codePoints (hex nonce))),
    ("ct", .str (codePoints (hex ct)))]

/-- The `blob` of a file that is not protected. -/
def plainJson (body : String) : Json F :=
  .object [("v", .int 1), ("enc", .str (codePoints "none")), ("pt", .str (codePoints body))]

/-- The `blob` of `save`. -/
def fileJson (identity : Identity X E) (passphrase : Option String) (salt nonce : Bytes UInt8) :
    Except (Exc UInt8) (Json F) := do
  let passphrase := passphrase.getD ""
  let body := identity.bodyText K J
  if passphrase ≠ "" then
    let key := K.scryptDerive (encodeUtf8 passphrase) salt
    return lockedJson salt nonce (← P.aeadEncrypt key nonce (encodeUtf8 body) IDENTITY_AD)
  else return plainJson body

/-- What `save` writes. -/
def fileText (identity : Identity X E) (passphrase : Option String) (salt nonce : Bytes UInt8) :
    Except (Exc UInt8) (List Char) :=
  (identity.fileJson P K J passphrase salt nonce).map (Json.dumps J none)

/-! ## Loading -/

/-- Whether a file, if it exists, is protected by a passphrase. -/
def isEncrypted (file : Option (List Char)) : Bool :=
  match file.bind (Json.loads J) with
  | none => false
  | some blob =>
    match blob.getKey "enc" with
    | .error _ | .ok none => false
    | .ok enc => ! Json.isText enc "none"

/-- The body of an encrypted file. -/
def unlock (blob : Json F) (passphrase : Option String) : Except LoadError (Bytes UInt8) := do
  let passphrase := passphrase.getD ""
  if passphrase = "" then
    .error (.trustError "identity file is encrypted; a passphrase is required")
  else
    let key := K.scryptDerive (encodeUtf8 passphrase) (← blob.hexField "salt")
    let nonce ← blob.hexField "nonce"
    (P.aeadDecrypt key nonce (← blob.hexField "ct") IDENTITY_AD).mapError .primitive

/-- The body of a file that is not encrypted. -/
def plainBody (blob : Json F) : Except LoadError (Bytes UInt8) := do
  match ← blob.field "pt" with
  | .str s => LoadError.unicodeError.orRaise ((ofCodePoints s).map encodeUtf8)
  | _ => .error .typeError

/-- `data.get("nickname", "anon")`, which is taken to be a string. -/
def nicknameOf (data : Json F) : Except LoadError String := do
  match ← data.getKey "nickname" with
  | none => .ok "anon"
  | some (.str s) => LoadError.unicodeError.orRaise (ofCodePoints s)
  | some _ => .error .typeError

/-- What `load` makes of the body. -/
def ofBody (body : Bytes UInt8) : Except LoadError (Identity X E) := do
  let text ← LoadError.unicodeError.orRaise (decodeStrict body)
  let data ← LoadError.jsonDecodeError.orRaise (Json.loads J text.toList)
  return {
    signingPrivate := ← LoadError.valueError.orRaise
      (loadEd25519Private K.ed25519 (← data.hexField "signing_private"))
    staticPrivate := ← LoadError.valueError.orRaise
      (loadX25519Private K.x25519 (← data.hexField "static_private"))
    nickname := ← nicknameOf data }

def load (text : List Char) (passphrase : Option String) : Except LoadError (Identity X E) := do
  let blob ← LoadError.jsonDecodeError.orRaise (Json.loads J text)
  let enc ← blob.getKey "enc"
  let body ← if Json.isText enc "none" then plainBody blob else unlock P K blob passphrase
  ofBody K J body

end Identity

/-! ## Commands -/

/-- What makes a command stop with `SystemExit`. -/
inductive CliExit where
  | noTerminal
  | mismatch
  | couldNotUnlock
deriving DecidableEq

/-- The text of the exit. -/
def CliExit.msg (path envVar : String) : CliExit → String
  | .noTerminal => s!"{path} is encrypted and there is no terminal to prompt on.\n" ++
    s!"Set {envVar} in the environment instead."
  | .mismatch => "passphrases did not match"
  | .couldNotUnlock => s!"could not unlock {path}: wrong passphrase?"

/-- A start of a command that needs the identity: its arguments, its environment, what is typed at
its prompts, the keys and the random bytes it would draw, and after how many steps of writing the
file it is killed, if it is. -/
structure Invocation (X E : Type) where
  nick : String
  noEncrypt : Bool
  /-- The environment variable for the passphrase. -/
  fromEnv : Option String
  isatty : Bool
  typed : String
  first : String
  second : String
  signingPrivate : E
  staticPrivate : X
  salt : Bytes UInt8
  nonce : Bytes UInt8
  stop : Option ℕ

/-- How the start of a command ends. -/
inductive Started (X E : Type) where
  | identity (identity : Identity X E)
  | exits (exit : CliExit)
  | raises (e : LoadError)
  | killed

namespace Invocation

variable (P : Primitives UInt8 X E) (K : KeyStorage X E) (J : FloatFormat F)

/-- `resolve_passphrase`, on the file if it exists. -/
def resolvePassphrase (inv : Invocation X E) (file : Option (List Char)) :
    Except CliExit (Option String) :=
  if inv.fromEnv.getD "" ≠ "" then .ok inv.fromEnv
  else if file.isSome ∧ Identity.isEncrypted J file then
    if ¬ inv.isatty then .error .noTerminal else .ok (some inv.typed)
  -- existing, unencrypted: nothing to ask
  else if file.isSome then .ok none
  else if inv.noEncrypt then .ok none
  else if ¬ inv.isatty then .ok none
  else if inv.first = "" then .ok none
  else if inv.first ≠ inv.second then .error .mismatch
  else .ok (some inv.first)

/-- `Identity.generate(nickname)` -/
def generate (inv : Invocation X E) : Identity X E :=
  ⟨inv.signingPrivate, inv.staticPrivate, inv.nick⟩

/-- `load_identity`, with the exceptions of `load_or_create` as it handles them. -/
def loadIdentity (inv : Invocation X E) (files : FilePair Char) :
    Started X E × FilePair Char :=
  let text := files.file.map FileCopy.data
  match inv.resolvePassphrase J text with
  | .error exit => (.exits exit, files)
  | .ok passphrase =>
    match text with
    | some text =>
      match Identity.load P K J text passphrase with
      | .ok identity => (.identity identity, files)
      | .error e =>
        (if Identity.isEncrypted J (some text) then .exits .couldNotUnlock else .raises e, files)
    | none =>
      match inv.generate.fileText P K J passphrase inv.salt inv.nonce with
      | .error e => (.raises (.primitive e), files)
      | .ok text =>
        (if completes text inv.stop then .identity inv.generate else .killed,
          files.overwrite text inv.stop)

/-- One command after the other: how each of them starts, and the files in the end. -/
def startAll (files : FilePair Char) :
    List (Invocation X E) → List (Started X E) × FilePair Char
  | [] => ([], files)
  | inv :: invs =>
    let (started, files) := inv.loadIdentity P K J files
    let (rest, files) := startAll files invs
    (started :: rest, files)

end Invocation

end Chatbit
