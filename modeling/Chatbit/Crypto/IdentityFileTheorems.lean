import Chatbit.Crypto.IdentityFile
import Chatbit.Lib.JsonTheorems
import Chatbit.Utf8

/-!
# What the identity file is for

Seen by its user the identity file is a vault (`Vault`): it holds one identity, which it gives to
whoever has its passphrase, or to everybody if it was made without one. Commands that start one
after the other, with whatever is in the environment or typed at their prompts, and killed at any
step of writing the file, keep to the vault (`keeps_to_vault`).
-/

namespace Chatbit

open Lib

variable {X E F : Type}

/-! ## The vault -/

/-- An identity and the passphrase that protects it; without one the passphrase is empty. -/
structure Vault (X E : Type) where
  identity : Identity X E
  passphrase : String

namespace Invocation

/-- The passphrase that a command has for a protected identity. -/
def given (inv : Invocation X E) : Option String :=
  if inv.fromEnv.getD "" ≠ "" then inv.fromEnv
  else if inv.isatty then some inv.typed
  else none

/-- The passphrase that a command protects a new identity with. -/
def chosen (inv : Invocation X E) : Except CliExit String :=
  if inv.fromEnv.getD "" ≠ "" then .ok (inv.fromEnv.getD "")
  else if inv.noEncrypt ∨ ¬ inv.isatty ∨ inv.first = "" then .ok ""
  else if inv.first ≠ inv.second then .error .mismatch
  else .ok inv.first

end Invocation

namespace Vault

/-- What a command gets from a vault. -/
def start (vault : Vault X E) (inv : Invocation X E) : Started X E :=
  if vault.passphrase = "" then .identity vault.identity
  else match inv.given with
    | none => .exits .noTerminal
    | some passphrase =>
      if passphrase = vault.passphrase then .identity vault.identity else .exits .couldNotUnlock

/-- What a command does to the vault, if there is one: it makes the first one, unless it is killed,
and no other. -/
inductive Step : Option (Vault X E) → Invocation X E → Started X E → Option (Vault X E) → Prop
  | opens (vault : Vault X E) (inv : Invocation X E) :
      Step (some vault) inv (vault.start inv) (some vault)
  | refuses {inv : Invocation X E} {exit : CliExit} (h : inv.chosen = .error exit) :
      Step none inv (.exits exit) none
  | creates {inv : Invocation X E} {passphrase : String} (h : inv.chosen = .ok passphrase) :
      Step none inv (.identity inv.generate) (some ⟨inv.generate, passphrase⟩)
  | killed {inv : Invocation X E} (h : inv.stop ≠ none) : Step none inv .killed none

/-- One command after the other. -/
inductive Run : Option (Vault X E) → List (Invocation X E) → List (Started X E) →
    Option (Vault X E) → Prop
  | nil (vault : Option (Vault X E)) : Run vault [] [] vault
  | cons {vault vault' vault'' : Option (Vault X E)} {inv : Invocation X E}
      {invs : List (Invocation X E)} {started : Started X E} {rest : List (Started X E)}
      (hstep : Step vault inv started vault') (hrun : Run vault' invs rest vault'') :
      Run vault (inv :: invs) (started :: rest) vault''

/-- A vault gives nothing but its identity. -/
lemma eq_of_start {vault : Vault X E} {inv : Invocation X E} {identity : Identity X E}
    (h : vault.start inv = .identity identity) : identity = vault.identity := by
  unfold start at h
  split_ifs at h with hopen
  · exact (Started.identity.inj h).symm
  · cases hgiven : inv.given with
    | none =>
      rw [hgiven] at h
      cases h
    | some passphrase =>
      rw [hgiven] at h
      simp only at h
      split_ifs at h
      exact (Started.identity.inj h).symm

/-- A vault never changes. -/
lemma Run.of_some {vault : Vault X E} {vault' : Option (Vault X E)} {invs : List (Invocation X E)}
    {started : List (Started X E)} (h : Run (some vault) invs started vault') :
    ∀ identity, .identity identity ∈ started → identity = vault.identity := by
  induction invs generalizing started with
  | nil =>
    cases h
    exact fun identity h => absurd h List.not_mem_nil
  | cons inv invs ih =>
    cases h with
    | cons hstep hrun =>
      cases hstep
      intro identity hmem
      rcases List.mem_cons.mp hmem with hfirst | hmem
      · exact eq_of_start hfirst.symm
      · exact ih hrun identity hmem

/-- All the commands that get an identity get the same one. -/
lemma Run.one_identity {vault' : Option (Vault X E)} {invs : List (Invocation X E)}
    {started : List (Started X E)} (h : Run none invs started vault') :
    ∀ identity identity', .identity identity ∈ started → .identity identity' ∈ started →
      identity = identity' := by
  induction invs generalizing started with
  | nil =>
    cases h
    exact fun identity identity' h => absurd h List.not_mem_nil
  | cons inv invs ih =>
    cases h with
    | @cons _ _ _ _ _ _ rest hstep hrun =>
      cases hstep with
      | refuses _ | killed _ =>
        intro identity identity' hmem hmem'
        simp only [List.mem_cons, reduceCtorEq, false_or] at hmem hmem'
        exact ih hrun identity identity' hmem hmem'
      | creates _ =>
        -- from here on there is a vault
        have hall : ∀ identity, .identity identity ∈ .identity inv.generate :: rest →
            identity = inv.generate := by
          intro identity hmem
          rcases List.mem_cons.mp hmem with hfirst | hmem
          · exact Started.identity.inj hfirst
          · exact hrun.of_some identity hmem
        exact fun identity identity' h h' => (hall identity h).trans (hall identity' h').symm

end Vault

/-! ## JSON objects -/

namespace Lib.Json

variable {J : FloatFormat F} {fields : List (String × Json F)} {key : String}

lemma plain_object (hnodup : (fields.map Prod.fst).Nodup) (h : ∀ field ∈ fields, Plain J field.2) :
    Plain J (object fields) := by
  refine .obj ?_ ?_ ?_
  · rw [List.map_map]
    have hkeys : (Prod.fst ∘ fun field : String × Json F => (codePoints field.1, field.2)) =
        codePoints ∘ Prod.fst := rfl
    rw [hkeys, ← List.map_map]
    exact hnodup.map fun _ _ => codePoints_inj.mp
  · simp only [List.forall_mem_map]
    exact fun field _ => isText_codePoints field.1
  · simp only [List.forall_mem_map]
    exact h

/-- A key of a dictionary is looked up. -/
lemma get?_object :
    get? (fields.map fun (key, v) => (codePoints key, v)) key = fields.lookup key := by
  induction fields with
  | nil => rfl
  | cons field fields ih =>
    unfold get? at ih ⊢
    rw [List.map_cons, List.find?_cons, List.lookup_cons]
    by_cases h : field.1 = key
    · simp [h]
    · have hcodes : codePoints field.1 ≠ codePoints key := mt codePoints_inj.mp h
      simp only [hcodes, decide_false, beq_false_of_ne (Ne.symm h)]
      exact ih

lemma field_object : (object fields).field key =
    (LoadError.keyError key).orRaise (fields.lookup key) :=
  congrArg (LoadError.keyError key).orRaise get?_object

lemma getKey_object : (object fields).getKey key = .ok (fields.lookup key) :=
  congrArg Except.ok get?_object

lemma isText_str (s text : String) :
    isText (some (Json.str (codePoints s) : Json F)) text = decide (s = text) :=
  decide_eq_decide.mpr codePoints_inj

/-- Hex that has been written is read. -/
lemma hexField_object {raw : Bytes UInt8}
    (h : fields.lookup key = some (.str (codePoints (hex raw)))) :
    (object fields).hexField key = .ok raw := by
  unfold hexField
  rw [field_object, h]
  show LoadError.valueError.orRaise ((ofCodePoints _).bind _) = _
  rw [ofCodePoints_codePoints]
  show LoadError.valueError.orRaise (fromHex (hex raw).toList) = _
  rw [fromHex_hex]
  rfl

end Lib.Json

/-! ## Reading back what is saved -/

/-- What has been encoded is decoded. -/
lemma decodeStrict_encodeUtf8 (text : String) : decodeStrict (encodeUtf8 text) = some text := by
  rw [decodeStrict, decodeReplace_encodeUtf8, if_pos rfl]

namespace Identity

variable {P : Primitives UInt8 X E} {K : KeyStorage X E} {J : FloatFormat F}
  {identity : Identity X E} {salt nonce ct body : Bytes UInt8} {passphrase : String}

lemma plain_bodyJson (identity : Identity X E) : Json.Plain J (identity.bodyJson K) := by
  refine Json.plain_object (by simp) ?_
  simp only [List.forall_mem_cons, List.not_mem_nil, IsEmpty.forall_iff, implies_true, and_true]
  exact ⟨.str (Json.isText_codePoints _), .str (Json.isText_codePoints _),
    .str (Json.isText_codePoints _)⟩

lemma plain_lockedJson (salt nonce ct : Bytes UInt8) :
    Json.Plain J (lockedJson salt nonce ct) := by
  refine Json.plain_object (by simp) ?_
  simp only [List.forall_mem_cons, List.not_mem_nil, IsEmpty.forall_iff, implies_true, and_true]
  exact ⟨.int 1, .str (Json.isText_codePoints _), .str (Json.isText_codePoints _),
    .str (Json.isText_codePoints _), .str (Json.isText_codePoints _)⟩

lemma plain_plainJson (text : String) : Json.Plain J (plainJson text) := by
  refine Json.plain_object (by simp) ?_
  simp only [List.forall_mem_cons, List.not_mem_nil, IsEmpty.forall_iff, implies_true, and_true]
  exact ⟨.int 1, .str (Json.isText_codePoints _), .str (Json.isText_codePoints _)⟩

/-- The body is read as the identity it was made from. -/
lemma ofBody_bodyText (hK : K.Correct) (identity : Identity X E) :
    ofBody K J (encodeUtf8 (identity.bodyText K J)) = .ok identity := by
  have hloads : Json.loads J (identity.bodyText K J).toList = some (identity.bodyJson K) := by
    rw [bodyText, String.toList_ofList, Json.loads_dumps (plain_bodyJson identity)]
  have hsigning : (identity.bodyJson K (F := F)).hexField "signing_private" =
      .ok (K.ed25519.privateBytes identity.signingPrivate) := Json.hexField_object rfl
  have hstatic : (identity.bodyJson K (F := F)).hexField "static_private" =
      .ok (K.x25519.privateBytes identity.staticPrivate) := Json.hexField_object rfl
  have hsigningKey : loadEd25519Private K.ed25519 (K.ed25519.privateBytes identity.signingPrivate) =
      some identity.signingPrivate := by
    have hlength : (K.ed25519.privateBytes identity.signingPrivate).length = 32 :=
      hK.ed25519.length_privateBytes _
    rw [loadEd25519Private, if_neg (not_not.mpr hlength),
      hK.ed25519.fromPrivateBytes_privateBytes]
  have hstaticKey : loadX25519Private K.x25519 (K.x25519.privateBytes identity.staticPrivate) =
      some identity.staticPrivate := by
    rw [loadX25519Private, if_neg (not_not.mpr (hK.x25519.length_privateBytes _)),
      hK.x25519.fromPrivateBytes_privateBytes]
  have hnickname : nicknameOf (identity.bodyJson K (F := F)) = .ok identity.nickname := by
    unfold nicknameOf bodyJson
    rw [Json.getKey_object]
    show LoadError.unicodeError.orRaise (ofCodePoints (codePoints identity.nickname)) = _
    rw [ofCodePoints_codePoints]
    rfl
  unfold ofBody
  rw [decodeStrict_encodeUtf8]
  simp only [bind, Except.bind, LoadError.orRaise, hloads, hsigning, hstatic, hsigningKey,
    hstaticKey, hnickname]
  rfl

/-! ## The two forms of the file -/

lemma enc_plainJson (text : String) :
    (plainJson (F := F) text).getKey "enc" = .ok (some (.str (codePoints "none"))) :=
  Json.getKey_object

lemma plainBody_plainJson (text : String) :
    plainBody (plainJson (F := F) text) = .ok (encodeUtf8 text) := by
  have hfield : (plainJson (F := F) text).field "pt" = .ok (.str (codePoints text)) :=
    Json.field_object
  simp only [plainBody, bind, Except.bind, hfield, ofCodePoints_codePoints]
  rfl

/-- The file of an identity without a passphrase. -/
lemma load_plain (hK : K.Correct) (identity : Identity X E) (passphrase : Option String) :
    load P K J (Json.dumps J none (plainJson (identity.bodyText K J))) passphrase =
      .ok identity := by
  unfold load
  rw [Json.loads_dumps (plain_plainJson _)]
  simp only [bind, Except.bind, LoadError.orRaise, enc_plainJson, Json.isText_str, decide_true,
    if_true, plainBody_plainJson, ofBody_bodyText hK]

lemma isEncrypted_plain (text : String) :
    isEncrypted J (some (Json.dumps J none (plainJson text))) = false := by
  unfold isEncrypted
  rw [Option.bind_some, Json.loads_dumps (plain_plainJson _)]
  simp only [enc_plainJson, Json.isText_str, decide_true, Bool.not_true]

lemma enc_lockedJson (salt nonce ct : Bytes UInt8) :
    (lockedJson (F := F) salt nonce ct).getKey "enc" =
      .ok (some (.str (codePoints "scrypt-chacha20poly1305"))) := Json.getKey_object

lemma isEncrypted_locked (salt nonce ct : Bytes UInt8) :
    isEncrypted J (some (Json.dumps J none (lockedJson salt nonce ct))) = true := by
  unfold isEncrypted
  rw [Option.bind_some, Json.loads_dumps (plain_lockedJson _ _ _)]
  simp only [enc_lockedJson, Json.isText_str]
  decide

/-- What a passphrase makes of a protected file. -/
lemma load_locked (salt nonce ct : Bytes UInt8) (passphrase : Option String) :
    load P K J (Json.dumps J none (lockedJson salt nonce ct)) passphrase =
      if passphrase.getD "" = "" then
        .error (.trustError "identity file is encrypted; a passphrase is required")
      else
        ((P.aeadDecrypt (K.scryptDerive (encodeUtf8 (passphrase.getD "")) salt) nonce ct
          IDENTITY_AD).mapError .primitive).bind (ofBody K J) := by
  have hsalt : (lockedJson (F := F) salt nonce ct).hexField "salt" = .ok salt :=
    Json.hexField_object rfl
  have hnonce : (lockedJson (F := F) salt nonce ct).hexField "nonce" = .ok nonce :=
    Json.hexField_object rfl
  have hct : (lockedJson (F := F) salt nonce ct).hexField "ct" = .ok ct :=
    Json.hexField_object rfl
  have hne : ("scrypt-chacha20poly1305" = "none") = False := by decide
  unfold load
  rw [Json.loads_dumps (plain_lockedJson _ _ _)]
  simp only [bind, Except.bind, LoadError.orRaise, enc_lockedJson, Json.isText_str, hne,
    decide_false, Bool.false_eq_true, if_false, unlock, hsalt, hnonce, hct]
  split_ifs <;> rfl

/-- What is saved without a passphrase. -/
lemma fileText_plain {passphrase : Option String} (h : passphrase.getD "" = "") :
    identity.fileText P K J passphrase salt nonce =
      .ok (Json.dumps J none (plainJson (identity.bodyText K J))) := by
  unfold fileText fileJson
  rw [h]
  rfl

/-- What is saved with a passphrase. -/
lemma fileText_locked (hK : K.Correct) {passphrase : Option String}
    (h : passphrase.getD "" ≠ "") (hnonce : nonce.length = 12) :
    identity.fileText P K J passphrase salt nonce =
      .ok (Json.dumps J none (lockedJson salt nonce (P.chachaEncrypt
        (K.scryptDerive (encodeUtf8 (passphrase.getD "")) salt) nonce
        (encodeUtf8 (identity.bodyText K J)) IDENTITY_AD))) := by
  have hkey := hK.length_scryptDerive (encodeUtf8 (passphrase.getD "")) salt
  unfold fileText fileJson
  simp only [if_pos h, Primitives.aeadEncrypt, if_neg (not_not.mpr hkey),
    if_neg (not_not.mpr hnonce)]
  rfl

end Identity

/-! ## Commands keep to the vault -/

namespace Invocation

variable {P : Primitives UInt8 X E} {K : KeyStorage X E} {J : FloatFormat F}
  {inv made : Invocation X E} {invs : List (Invocation X E)} {files : FilePair Char}
  {text : List Char}

/-- The documented behaviour of the AEAD: what a key has sealed, it opens. -/
def Opens (P : Primitives UInt8 X E) : Prop :=
  ∀ key nonce plaintext ad, P.chachaDecrypt key nonce (P.chachaEncrypt key nonce plaintext ad) ad =
    some plaintext

/-- The passphrase of one command does not open what another one has protected with another
passphrase. -/
def Apart (P : Primitives UInt8 X E) (K : KeyStorage X E) (J : FloatFormat F)
    (made inv : Invocation X E) : Prop :=
  ∀ chosen given, made.chosen = .ok chosen → inv.given = some given → given ≠ chosen →
    P.chachaDecrypt (K.scryptDerive (encodeUtf8 given) made.salt) made.nonce
      (P.chachaEncrypt (K.scryptDerive (encodeUtf8 chosen) made.salt) made.nonce
        (encodeUtf8 (made.generate.bodyText K J)) IDENTITY_AD) IDENTITY_AD = none

/-- Without a file the passphrase is chosen. -/
lemma resolvePassphrase_none (inv : Invocation X E) :
    (inv.resolvePassphrase J none).map (fun passphrase => passphrase.getD "") = inv.chosen := by
  unfold resolvePassphrase chosen
  by_cases henv : inv.fromEnv.getD "" ≠ ""
  · rw [if_pos henv, if_pos henv]
    rfl
  · rw [if_neg henv, if_neg henv, if_neg (by simp), if_neg (by simp)]
    by_cases hno : inv.noEncrypt
    · rw [if_pos hno, if_pos (.inl hno)]
      rfl
    by_cases htty : ¬ inv.isatty
    · rw [if_neg hno, if_pos htty, if_pos (.inr (.inl htty))]
      rfl
    by_cases hfirst : inv.first = ""
    · rw [if_neg hno, if_neg htty, if_pos hfirst, if_pos (.inr (.inr hfirst))]
      rfl
    · have hasked : ¬ (inv.noEncrypt ∨ ¬ inv.isatty ∨ inv.first = "") := by
        rintro (h | h | h)
        · exact hno h
        · exact htty h
        · exact hfirst h
      rw [if_neg hno, if_neg htty, if_neg hfirst, if_neg hasked]
      split_ifs <;> rfl

/-- A protected file asks for its passphrase. -/
lemma resolvePassphrase_encrypted (inv : Invocation X E)
    (h : Identity.isEncrypted J (some text) = true) :
    inv.resolvePassphrase J (some text) = match inv.given with
      | none => .error .noTerminal
      | some passphrase => .ok (some passphrase) := by
  unfold resolvePassphrase given
  by_cases henv : inv.fromEnv.getD "" ≠ ""
  · rw [if_pos henv, if_pos henv]
    cases hsome : inv.fromEnv with
    | none => exact absurd (by rw [hsome]; rfl) henv
    | some passphrase => rfl
  · rw [if_neg henv, if_neg henv, if_pos ⟨rfl, h⟩]
    cases inv.isatty <;> rfl

/-- Any other file is read without asking. -/
lemma resolvePassphrase_plain (inv : Invocation X E)
    (h : Identity.isEncrypted J (some text) = false) :
    ∃ passphrase, inv.resolvePassphrase J (some text) = .ok passphrase := by
  unfold resolvePassphrase
  by_cases henv : inv.fromEnv.getD "" ≠ ""
  · exact ⟨_, if_pos henv⟩
  · rw [if_neg henv, if_neg (by simp [h])]
    exact ⟨none, if_pos rfl⟩

/-- The file holds the vault: it is whole, only its owner can read it, and one of the commands has
made it. -/
def Holds (P : Primitives UInt8 X E) (K : KeyStorage X E) (J : FloatFormat F)
    (invs : List (Invocation X E)) (files : FilePair Char) : Option (Vault X E) → Prop
  | none => files.file = none
  | some vault => ∃ made ∈ invs, ∃ text, made.chosen = .ok vault.passphrase ∧
      vault.identity = made.generate ∧
      made.generate.fileText P K J (some vault.passphrase) made.salt made.nonce = .ok text ∧
      files.file = some ⟨text, true⟩

/-- A new identity is made, or nothing is left of it. -/
lemma loadIdentity_none (hK : K.Correct) (hmem : inv ∈ invs) (hnonce : inv.nonce.length = 12)
    (hfile : files.file = none) :
    ∃ vault, Vault.Step none inv (inv.loadIdentity P K J files).1 vault ∧
      Holds P K J invs (inv.loadIdentity P K J files).2 vault := by
  have hresolve := resolvePassphrase_none (J := J) inv
  unfold loadIdentity
  simp only [hfile, Option.map_none]
  cases hpass : inv.resolvePassphrase J none with
  | error exit =>
    rw [hpass] at hresolve
    exact ⟨none, .refuses hresolve.symm, hfile⟩
  | ok passphrase =>
    rw [hpass] at hresolve
    -- to `save` no passphrase is as good as an empty one
    have htext : ∃ text, inv.generate.fileText P K J passphrase inv.salt inv.nonce = .ok text ∧
        inv.generate.fileText P K J (some (passphrase.getD "")) inv.salt inv.nonce = .ok text := by
      by_cases hempty : passphrase.getD "" = ""
      · exact ⟨_, Identity.fileText_plain hempty, Identity.fileText_plain hempty⟩
      · exact ⟨_, Identity.fileText_locked hK hempty hnonce,
          Identity.fileText_locked hK hempty hnonce⟩
    obtain ⟨text, htext, hsaved⟩ := htext
    have hfiles := FilePair.file_overwrite text inv.stop files
    simp only [htext]
    cases hdone : completes text inv.stop with
    | true =>
      rw [hdone, if_pos rfl] at hfiles
      exact ⟨_, .creates hresolve.symm, inv, hmem, text, hresolve.symm, rfl, hsaved, hfiles⟩
    | false =>
      rw [hdone, if_neg Bool.false_ne_true, hfile] at hfiles
      refine ⟨none, .killed fun hstop => ?_, hfiles⟩
      rw [hstop] at hdone
      cases hdone

/-- A file that exists is read and stays. -/
lemma loadIdentity_some (hP : Opens P) (hK : K.Correct) {vault : Vault X E}
    (hnonce : ∀ inv ∈ invs, inv.nonce.length = 12) (hapart : ∀ made ∈ invs, made.Apart P K J inv)
    (h : Holds P K J invs files (some vault)) :
    inv.loadIdentity P K J files = (vault.start inv, files) := by
  obtain ⟨made, hmem, text, hchosen, hidentity, htext, hfile⟩ := h
  unfold loadIdentity Vault.start
  rw [hfile, hidentity]
  simp only [Option.map_some]
  by_cases hempty : vault.passphrase = ""
  · -- the file is open: a passphrase that is given is not looked at
    have hplain : (some vault.passphrase).getD "" = "" := hempty
    rw [if_pos hempty]
    rw [Identity.fileText_plain hplain] at htext
    obtain rfl := Except.ok.inj htext
    obtain ⟨passphrase, hpass⟩ :=
      inv.resolvePassphrase_plain (Identity.isEncrypted_plain (J := J) (made.generate.bodyText K J))
    simp only [hpass, Identity.load_plain hK]
  · have hlocked : (some vault.passphrase).getD "" ≠ "" := hempty
    rw [if_neg hempty]
    rw [Identity.fileText_locked hK hlocked (hnonce made hmem)] at htext
    obtain rfl := Except.ok.inj htext
    rw [Option.getD_some]
    generalize hct : P.chachaEncrypt (K.scryptDerive (encodeUtf8 vault.passphrase) made.salt)
      made.nonce (encodeUtf8 (made.generate.bodyText K J)) IDENTITY_AD = ct
    have hencrypted := Identity.isEncrypted_locked (J := J) made.salt made.nonce ct
    have hload := fun passphrase => Identity.load_locked (P := P) (K := K) (J := J) made.salt
      made.nonce ct passphrase
    simp only [resolvePassphrase_encrypted inv hencrypted]
    cases hgiven : inv.given with
    | none => rfl
    | some given =>
      simp only [hload, hencrypted, if_true, Option.getD_some]
      by_cases heq : given = vault.passphrase
      · -- the passphrase that it was made with
        have hopen : P.aeadDecrypt (K.scryptDerive (encodeUtf8 vault.passphrase) made.salt)
            made.nonce ct IDENTITY_AD = .ok (encodeUtf8 (made.generate.bodyText K J)) := by
          rw [Primitives.aeadDecrypt, if_neg (not_not.mpr (hK.length_scryptDerive _ _)),
            if_neg (not_not.mpr (hnonce made hmem)),
            ← hct, hP]
        rw [heq, if_neg hempty, if_pos rfl, hopen]
        simp only [Except.mapError, Except.bind, Identity.ofBody_bodyText hK]
      · rw [if_neg heq]
        by_cases hnothing : given = ""
        · -- `load` raises before it derives a key
          rw [if_pos hnothing]
        · have hclosed : P.aeadDecrypt (K.scryptDerive (encodeUtf8 given) made.salt) made.nonce ct
              IDENTITY_AD = .error (.aeadError "AEAD authentication failed") := by
            have hnone := hapart made hmem vault.passphrase given hchosen hgiven heq
            rw [hct] at hnone
            rw [Primitives.aeadDecrypt, if_neg (not_not.mpr (hK.length_scryptDerive _ _)),
              if_neg (not_not.mpr (hnonce made hmem)), hnone]
          rw [if_neg hnothing, hclosed]
          rfl

/-- Commands that start one after the other keep to the vault, and the files hold it. -/
lemma startAll_run (hP : Opens P) (hK : K.Correct) {all : List (Invocation X E)}
    (hnonce : ∀ inv ∈ all, inv.nonce.length = 12)
    (hapart : ∀ made ∈ all, ∀ inv ∈ all, made.Apart P K J inv) (hall : ∀ inv ∈ invs, inv ∈ all)
    {vault : Option (Vault X E)} (h : Holds P K J all files vault) :
    ∃ vault', Vault.Run vault invs (startAll P K J files invs).1 vault' ∧
      Holds P K J all (startAll P K J files invs).2 vault' := by
  -- on the commands: the file holds the vault before each of them
  induction invs generalizing files vault with
  | nil => exact ⟨vault, .nil vault, h⟩
  | cons inv invs ih =>
    have hinv := hall inv List.mem_cons_self
    have hstep : ∃ vault', Vault.Step vault inv (inv.loadIdentity P K J files).1 vault' ∧
        Holds P K J all (inv.loadIdentity P K J files).2 vault' := by
      cases vault with
      | none => exact loadIdentity_none hK hinv (hnonce inv hinv) h
      | some vault =>
        rw [loadIdentity_some hP hK hnonce (fun made hmade => hapart made hmade inv hinv) h]
        exact ⟨some vault, .opens vault inv, h⟩
    obtain ⟨vault', hstep, hholds⟩ := hstep
    obtain ⟨vault'', hrun, hend⟩ :=
      ih (fun inv hmem => hall inv (List.mem_cons_of_mem _ hmem)) hholds
    exact ⟨vault'', .cons hstep hrun, hend⟩

/-- Commands that start where there is a file leave it as it is. -/
lemma startAll_some (hP : Opens P) (hK : K.Correct) {all : List (Invocation X E)}
    (hnonce : ∀ inv ∈ all, inv.nonce.length = 12)
    (hapart : ∀ made ∈ all, ∀ inv ∈ all, made.Apart P K J inv) (hall : ∀ inv ∈ invs, inv ∈ all)
    {vault : Vault X E} (h : Holds P K J all files (some vault)) :
    (startAll P K J files invs).2 = files := by
  induction invs with
  | nil => rfl
  | cons inv invs ih =>
    have hinv := hall inv List.mem_cons_self
    have hload := loadIdentity_some hP hK hnonce (fun made hmade => hapart made hmade inv hinv) h
    rw [startAll]
    simp only [hload]
    exact ih fun inv hmem => hall inv (List.mem_cons_of_mem _ hmem)

lemma startAll_append (before after : List (Invocation X E)) :
    (startAll P K J files (before ++ after)).2 =
      (startAll P K J (startAll P K J files before).2 after).2 := by
  induction before generalizing files with
  | nil => rfl
  | cons inv before ih => exact ih

/-- For all commands that start one after the other where there is no identity file: they do what
the vault does, the file holds the vault in the end, once it is there it never changes, and all that
get an identity get the same. -/
theorem keeps_to_vault (hP : Opens P) (hK : K.Correct)
    (hnonce : ∀ inv ∈ invs, inv.nonce.length = 12)
    (hapart : ∀ made ∈ invs, ∀ inv ∈ invs, made.Apart P K J inv) (hfile : files.file = none) :
    (∃ vault, Vault.Run none invs (startAll P K J files invs).1 vault ∧
      Holds P K J invs (startAll P K J files invs).2 vault) ∧
    (∀ before after, invs = before ++ after → (startAll P K J files before).2.file ≠ none →
      (startAll P K J files invs).2 = (startAll P K J files before).2) ∧
    ∀ identity identity', .identity identity ∈ (startAll P K J files invs).1 →
      .identity identity' ∈ (startAll P K J files invs).1 → identity = identity' := by
  have hholds : Holds P K J invs files none := hfile
  obtain ⟨vault, hrun, hend⟩ := startAll_run hP hK hnonce hapart (fun _ h => h) hholds
  refine ⟨⟨vault, hrun, hend⟩, ?_, hrun.one_identity⟩
  rintro before after rfl hmade
  have hbefore : ∀ inv ∈ before, inv ∈ before ++ after := fun _ => List.mem_append_left _
  obtain ⟨vault, -, hstarted⟩ := startAll_run hP hK hnonce hapart hbefore hholds
  cases vault with
  | none => exact absurd hstarted hmade
  | some vault =>
    rw [startAll_append]
    exact startAll_some hP hK hnonce hapart (fun _ => List.mem_append_right _) hstarted

/-- Private keys as they are written. -/
abbrev RawKey : Type := { raw : Bytes UInt8 // raw.length = DHLEN }

/-- Primitives for the identity file: a ciphertext names its key. -/
def namesKey : Primitives UInt8 RawKey RawKey where
  sha256 _ := zeros 32
  hmacSha256 _ _ := zeros 32
  chachaEncrypt key _ plaintext _ := key ++ plaintext
  chachaDecrypt key _ ciphertext _ :=
    if ciphertext.take key.length = key then some (ciphertext.drop key.length) else none
  x25519PublicBytes key := key.val
  exchange _ _ := zeros 32
  ed25519PublicBytes key := key.val
  sign _ _ := zeros 64
  ed25519Verify _ _ _ := false

/-- A key for each length of a passphrase. -/
def lengthKeys : KeyStorage RawKey RawKey where
  scryptDerive passphrase _ := List.replicate 32 (UInt8.ofNat passphrase.length)
  x25519 := DoubleRatchet.rawKeys
  ed25519 := DoubleRatchet.rawKeys

/-- A start at a terminal where `typed` is typed for a protected file and `sesame` is chosen for a
new one. -/
def atTerminal (typed : String) (stop : Option ℕ) : Invocation RawKey RawKey where
  nick := "alice"
  noEncrypt := false
  fromEnv := none
  isatty := true
  typed := typed
  first := "sesame"
  second := "sesame"
  signingPrivate := ⟨zeros 32, length_zeros 32⟩
  staticPrivate := ⟨zeros 32, length_zeros 32⟩
  salt := zeros 16
  nonce := zeros 12
  stop := stop

/-- Floats are not written here. -/
def noFloats : FloatFormat Unit := ⟨fun _ => [], fun _ => (), (), (), ()⟩

lemma chosen_atTerminal (typed : String) (stop : Option ℕ) :
    (atTerminal typed stop).chosen = .ok "sesame" := by
  simp [chosen, atTerminal]

lemma given_atTerminal (typed : String) (stop : Option ℕ) :
    (atTerminal typed stop).given = some typed := by
  simp [given, atTerminal]

/-- The first start is killed while it writes, the second one makes the file, and a wrong passphrase
does not open it. -/
theorem keeps_to_vault_killed :
    let invs := [atTerminal "" (some 5), atTerminal "" none, atTerminal "open" none,
      atTerminal "sesame" none]
    let started := startAll namesKey lengthKeys noFloats ⟨none, none⟩ invs
    (∃ vault, Vault.Run none invs started.1 vault ∧
      Holds namesKey lengthKeys noFloats invs started.2 vault) ∧
    (∀ before after, invs = before ++ after →
      (startAll namesKey lengthKeys noFloats ⟨none, none⟩ before).2.file ≠ none →
        started.2 = (startAll namesKey lengthKeys noFloats ⟨none, none⟩ before).2) ∧
    ∀ identity identity', .identity identity ∈ started.1 → .identity identity' ∈ started.1 →
      identity = identity' := by
  intro invs started
  have hterminal : ∀ inv ∈ invs, ∃ typed stop, inv = atTerminal typed stop ∧
      (typed = "" ∨ typed = "open" ∨ typed = "sesame") := by
    simp only [invs, List.forall_mem_cons, List.not_mem_nil, IsEmpty.forall_iff, implies_true,
      and_true]
    exact ⟨⟨_, _, rfl, .inl rfl⟩, ⟨_, _, rfl, .inl rfl⟩, ⟨_, _, rfl, .inr (.inl rfl)⟩,
      ⟨_, _, rfl, .inr (.inr rfl)⟩⟩
  have hopens : Opens namesKey := by
    intro key nonce plaintext ad
    show (if (key ++ plaintext).take key.length = key then _ else _) = _
    rw [if_pos List.take_left]
    show some ((key ++ plaintext).drop key.length) = _
    rw [List.drop_left]
  have hcorrect : lengthKeys.Correct :=
    ⟨fun _ _ => List.length_replicate, DoubleRatchet.rawKeys_correct, DoubleRatchet.rawKeys_correct⟩
  refine keeps_to_vault hopens hcorrect ?_ ?_ rfl
  · intro inv hmem
    obtain ⟨typed, stop, rfl, -⟩ := hterminal inv hmem
    exact length_zeros 12
  · intro made hmade inv hmem chosen given hchosen hgiven hne
    obtain ⟨typed, stop, rfl, -⟩ := hterminal made hmade
    obtain ⟨typed', stop', rfl, htyped⟩ := hterminal inv hmem
    rw [chosen_atTerminal] at hchosen
    rw [given_atTerminal] at hgiven
    obtain rfl := Except.ok.inj hchosen
    obtain rfl := Option.some.inj hgiven
    -- the lengths of the passphrases differ, and so do the keys
    have hkeys : lengthKeys.scryptDerive (encodeUtf8 "sesame") (zeros 16) ≠
        lengthKeys.scryptDerive (encodeUtf8 typed') (zeros 16) := by
      rcases htyped with rfl | rfl | rfl
      · decide
      · decide
      · exact absurd rfl hne
    have hlength : ∀ passphrase salt, (lengthKeys.scryptDerive passphrase salt).length = 32 :=
      fun _ _ => List.length_replicate
    refine if_neg fun hopen => ?_
    rw [hlength] at hopen
    exact hkeys ((List.take_left' (hlength _ (zeros 16))).symm.trans hopen)

end Invocation

end Chatbit
