import Chatbit.Crypto.NoiseTheorems
import Chatbit.Crypto.Symbolic
import Chatbit.Lib.Runs

/-!
# The counter of a cipher state

Runs of `encryptWithAd` and `decryptWithAd` on one object. A call that raises changes nothing and a
call that returns moves the counter on by one, so no two encryptions share a nonce. The check on the
counter lets the reserved value `MAX_NONCE` through.
-/

namespace Chatbit

open Lib

variable {β X E : Type} [Alphabet β] [DecidableEq β] {P : Primitives β X E}

omit [DecidableEq β] in
lemma nonceBytes_inj {n m : ℕ} (hn : n ≤ MAX_NONCE) (hm : m ≤ MAX_NONCE)
    (h : (nonceBytes n : Bytes β) = nonceBytes m) : n = m := by
  have hlt : ∀ {n : ℕ}, n ≤ MAX_NONCE → n < 256 ^ 8 := by
    intro n hn
    unfold MAX_NONCE at hn
    omega
  have hbig : (toBytesBig 8 n : Bytes β) = toBytesBig 8 m :=
    List.reverse_injective (List.append_cancel_left h)
  exact toBytesBig_inj (hlt hn) (hlt hm) hbig

namespace CipherState

/-! ## Calls and runs -/

/-- A call of one of the two methods. -/
inductive Call (β : Type) where
  | encrypt (ad plaintext : Bytes β)
  | decrypt (ad ciphertext : Bytes β)

def Call.run (P : Primitives β X E) : Call β → Method (Exc β) (CipherState β) (Bytes β)
  | .encrypt ad plaintext => encryptWithAd P ad plaintext
  | .decrypt ad ciphertext => decryptWithAd P ad ciphertext

/-- A call, with the object before and after it. -/
structure Step (β : Type) where
  before : CipherState β
  call : Call β
  result : Except (Exc β) (Bytes β)
  after : CipherState β

variable (P) in
def Call.step (st : CipherState β) (call : Call β) : Step β :=
  { before := st, call, result := (call.run P st).1, after := (call.run P st).2 }

variable (P) in
/-- Calls on one object, one after the other. -/
def steps : CipherState β → List (Call β) → List (Step β)
  | _, [] => []
  | st, call :: calls => call.step P st :: steps (call.run P st).2 calls

/-- The counter that an encryption has used, if it returned. -/
def Step.sealedAt (s : Step β) : Option ℕ :=
  match s.call, s.result with
  | .encrypt _ _, .ok _ => some s.before.n
  | _, _ => none

/-! ## The discipline -/

variable (P) in
/-- If the step is a decryption that raised, nothing has changed, and what the peer seals in this
state still opens. -/
def Step.FailsQuietly (s : Step β) : Prop :=
  ∀ ad ct e, s.call = .decrypt ad ct → s.result = .error e → s.after = s.before ∧
    ∀ ad pt genuine, (encryptWithAd P ad pt s.before).1 = .ok genuine →
      (decryptWithAd P ad genuine s.after).1 = .ok pt

/-- The call has raised `NoiseError` and changed nothing. -/
def Step.Refused (s : Step β) : Prop :=
  (∃ msg, s.result = .error (.noiseError msg)) ∧ s.after = s.before

variable (P) in
/-- The rules of Section 5.1 for a run. -/
structure Disciplined (st : CipherState β) (calls : List (Call β)) : Prop where
  increasing : ((steps P st calls).filterMap Step.sealedAt).Pairwise (· < ·)
  distinct : (((steps P st calls).filterMap Step.sealedAt).map
    (nonceBytes : ℕ → Bytes β)).Pairwise (· ≠ ·)
  failed : ∀ s ∈ steps P st calls, s.FailsQuietly P
  reserved : ∀ s ∈ steps P st calls, s.before.n = MAX_NONCE → s.Refused

variable (P) in
/-- At the reserved counter the call is a decryption, of something that has not been sealed there
with the object's key. -/
def Call.Spares (st : CipherState β) : Call β → Prop
  | .encrypt _ _ => st.n ≠ MAX_NONCE
  | .decrypt ad ct => st.n = MAX_NONCE → ∃ k, st.k = some k ∧ k.length = KEYLEN ∧
      ∀ pt, ct ≠ P.chachaEncrypt k (nonceBytes MAX_NONCE) pt ad

/-! ## One call -/

variable (P) in
/-- What a call computes from the key and the counter. -/
def Call.output (k : Bytes β) (n : ℕ) : Call β → Except (Exc β) (Bytes β)
  | .encrypt ad pt => P.aeadEncrypt k (nonceBytes n) pt ad
  | .decrypt ad ct =>
    match P.aeadDecrypt k (nonceBytes n) ct ad with
    | .error e => .error (decryptError e)
    | .ok pt => .ok pt

variable {st : CipherState β} {k : Bytes β}

omit [DecidableEq β] in
lemma output_encrypt (k : Bytes β) (n : ℕ) (ad pt : Bytes β) :
    Call.output P k n (.encrypt ad pt) =
      if k.length = KEYLEN then .ok (P.chachaEncrypt k (nonceBytes n) pt ad)
      else .error (.valueError "ChaCha20-Poly1305 needs a 32-byte key") := by
  simp only [Call.output, Primitives.aeadEncrypt, SymmetricState.length_nonceBytes, ne_eq,
    not_true_eq_false, if_false, ite_not]

omit [DecidableEq β] in
lemma output_decrypt (k : Bytes β) (n : ℕ) (ad ct : Bytes β) :
    Call.output P k n (.decrypt ad ct) =
      if k.length = KEYLEN then
        match P.chachaDecrypt k (nonceBytes n) ct ad with
        | some pt => .ok pt
        | none => .error (.noiseError "handshake/transport decryption failed")
      else .error (.valueError "ChaCha20-Poly1305 needs a 32-byte key") := by
  simp only [Call.output, Primitives.aeadDecrypt, SymmetricState.length_nonceBytes, ne_eq,
    not_true_eq_false, if_false, ite_not]
  split_ifs
  · cases P.chachaDecrypt k (nonceBytes n) ct ad <;> rfl
  · rfl

omit [DecidableEq β] in
lemma run_of_gt (hk : st.k = some k) (hn : MAX_NONCE < st.n) (call : Call β) :
    call.run P st = (.error (.noiseError "nonce exhausted; rekey or start a new session"), st) := by
  cases call with
  | encrypt ad pt => simp [Call.run, encryptWithAd, hk, hn]
  | decrypt ad ct => simp [Call.run, decryptWithAd, hk, hn]

omit [DecidableEq β] in
lemma run_of_le (hk : st.k = some k) (hn : st.n ≤ MAX_NONCE) (call : Call β) :
    call.run P st = match call.output P k st.n with
      | .error e => (.error e, st)
      | .ok out => (.ok out, { st with n := st.n + 1 }) := by
  have hcheck : ¬ MAX_NONCE < st.n := Nat.not_lt.mpr hn
  cases call with
  | encrypt ad pt =>
    simp only [Call.run, encryptWithAd, Method.self_bind, hk, gt_iff_lt, hcheck, if_false,
      Call.output]
    rw [Method.bind_apply, Method.eval_apply]
    rcases P.aeadEncrypt k (nonceBytes st.n) pt ad with e | ct
    · rfl
    · simp [hk]
  | decrypt ad ct =>
    simp only [Call.run, decryptWithAd, Method.self_bind, hk, gt_iff_lt, hcheck, if_false,
      Call.output]
    rcases P.aeadDecrypt k (nonceBytes st.n) ct ad with e | pt
    · rfl
    · simp [hk]

omit [DecidableEq β] in
/-- A call either raises and changes nothing, or it moves the counter on. -/
lemma run_cases (hk : st.k = some k) (call : Call β) :
    (∃ e, call.run P st = (.error e, st)) ∨
      st.n ≤ MAX_NONCE ∧ ∃ out, call.run P st = (.ok out, { st with n := st.n + 1 }) := by
  by_cases hn : st.n ≤ MAX_NONCE
  · rw [run_of_le hk hn]
    rcases call.output P k st.n with e | out
    · exact Or.inl ⟨e, rfl⟩
    · exact Or.inr ⟨hn, out, rfl⟩
  · exact Or.inl ⟨_, run_of_gt hk (Nat.not_le.mp hn) call⟩

omit [DecidableEq β] in
lemma run_key (hk : st.k = some k) (call : Call β) : (call.run P st).2.k = some k := by
  rcases run_cases hk call with ⟨e, h⟩ | ⟨-, out, h⟩
  · rw [h]
    exact hk
  · rw [h]
    exact hk

omit [DecidableEq β] in
/-- What one side seals, the other opens in the same state. -/
lemma decrypt_genuine (hP : P.Correct) (hk : st.k = some k) {ad pt genuine : Bytes β}
    (h : (encryptWithAd P ad pt st).1 = .ok genuine) :
    (decryptWithAd P ad genuine st).1 = .ok pt := by
  change (Call.run P (.encrypt ad pt) st).1 = _ at h
  change (Call.run P (.decrypt ad genuine) st).1 = _
  by_cases hn : st.n ≤ MAX_NONCE
  · rw [run_of_le hk hn, output_encrypt] at h
    rw [run_of_le hk hn, output_decrypt]
    split_ifs at h ⊢ with hlen
    · have hsealed : P.chachaEncrypt k (nonceBytes st.n) pt ad = genuine := Except.ok.inj h
      rw [← hsealed, hP.decrypt_encrypt]
  · rw [run_of_gt hk (Nat.not_le.mp hn)] at h
    cases h

omit [DecidableEq β] in
lemma step_failsQuietly (hP : P.Correct) (hk : st.k = some k) (call : Call β) :
    (call.step P st).FailsQuietly P := by
  intro ad ct e _ herr
  have hafter : (call.run P st).2 = st := by
    change (call.run P st).1 = _ at herr
    rcases run_cases hk call with ⟨e', h⟩ | ⟨-, out, h⟩
    · rw [h]
    · rw [h] at herr
      cases herr
  refine ⟨hafter, fun ad pt genuine hgenuine => ?_⟩
  change (decryptWithAd P ad genuine (call.run P st).2).1 = _
  rw [hafter]
  exact decrypt_genuine hP hk hgenuine

omit [DecidableEq β] in
/-- The calls that the reserved counter refuses. -/
lemma refused_iff (hP : P.Correct) (hk : st.k = some k) (call : Call β) :
    (st.n = MAX_NONCE → (call.step P st).Refused) ↔ call.Spares P st := by
  by_cases hn : st.n = MAX_NONCE
  · have hrun := run_of_le (P := P) hk (Nat.le_of_eq hn) call
    rw [hn] at hrun
    simp only [hn, forall_const, Step.Refused, Call.step, hrun]
    cases call with
    | encrypt ad pt =>
      refine iff_of_false (fun hrefused => ?_) fun hspares => hspares hn
      obtain ⟨⟨msg, hmsg⟩, -⟩ := hrefused
      rw [output_encrypt] at hmsg
      split_ifs at hmsg
      cases hmsg
    | decrypt ad ct =>
      simp only [Call.Spares, hn, hk, forall_const, Option.some.injEq, exists_eq_left',
        output_decrypt]
      by_cases hlen : k.length = KEYLEN
      · simp only [hlen, if_true, true_and]
        cases hdec : P.chachaDecrypt k (nonceBytes MAX_NONCE) ct ad with
        | none =>
          refine iff_of_true ⟨⟨_, rfl⟩, rfl⟩ fun pt hct => ?_
          rw [hct, hP.decrypt_encrypt] at hdec
          cases hdec
        | some pt =>
          refine iff_of_false (fun hrefused => ?_) fun hforged => ?_
          · obtain ⟨⟨msg, hmsg⟩, -⟩ := hrefused
            cases hmsg
          · exact hforged pt ((hP.decrypt_eq_some_iff _ _ _ _ _).mp hdec)
      · simp only [hlen, if_false, false_and, iff_false, not_and]
        rintro ⟨msg, hmsg⟩
        cases hmsg
  · refine iff_of_true (fun h => absurd h hn) ?_
    cases call with
    | encrypt ad pt => exact hn
    | decrypt ad ct => exact fun h => absurd h hn

/-! ## Runs -/

omit [DecidableEq β] in
/-- A call seals at the counter of the object and moves it on, or it seals nothing. -/
lemma sealedAt_cases (hk : st.k = some k) (call : Call β) :
    (call.step P st).sealedAt = none ∧ st.n ≤ (call.run P st).2.n ∨
      (call.step P st).sealedAt = some st.n ∧ st.n ≤ MAX_NONCE ∧
        st.n + 1 ≤ (call.run P st).2.n := by
  rcases run_cases (P := P) hk call with ⟨e, h⟩ | ⟨hn, out, h⟩
  · refine Or.inl ⟨?_, ?_⟩
    · cases call <;> simp [Step.sealedAt, Call.step, h]
    · exact Nat.le_of_eq (congrArg (fun run => run.2.n) h).symm
  · cases call with
    | encrypt ad pt =>
      refine Or.inr ⟨by simp [Step.sealedAt, Call.step, h], hn, ?_⟩
      exact Nat.le_of_eq (congrArg (fun run => run.2.n) h).symm
    | decrypt ad ct =>
      refine Or.inl ⟨rfl, ?_⟩
      rw [h]
      exact Nat.le_succ st.n

omit [DecidableEq β] in
/-- Encryptions use counters from that of the object on, up to the last one. -/
lemma sealedAt_bounds (hk : st.k = some k) (calls : List (Call β)) :
    ∀ n ∈ (steps P st calls).filterMap Step.sealedAt, st.n ≤ n ∧ n ≤ MAX_NONCE := by
  induction calls generalizing st with
  | nil => exact fun n hmem => absurd hmem List.not_mem_nil
  | cons call calls ih =>
    intro n hmem
    have hrest := ih (run_key (P := P) hk call) n
    rw [steps] at hmem
    rcases sealedAt_cases (P := P) hk call with ⟨hnone, hle⟩ | ⟨hsome, hn, hle⟩
    · rw [List.filterMap_cons_none hnone] at hmem
      exact ⟨Nat.le_trans hle (hrest hmem).1, (hrest hmem).2⟩
    · rw [List.filterMap_cons_some hsome] at hmem
      rcases List.mem_cons.mp hmem with rfl | hmem
      · exact ⟨Nat.le_refl _, hn⟩
      · exact ⟨Nat.le_of_succ_le (Nat.le_trans hle (hrest hmem).1), (hrest hmem).2⟩

omit [DecidableEq β] in
lemma sealedAt_increasing (hk : st.k = some k) (calls : List (Call β)) :
    ((steps P st calls).filterMap Step.sealedAt).Pairwise (· < ·) := by
  induction calls generalizing st with
  | nil => exact List.Pairwise.nil
  | cons call calls ih =>
    have hkey := run_key (P := P) hk call
    rw [steps]
    rcases sealedAt_cases (P := P) hk call with ⟨hnone, -⟩ | ⟨hsome, -, hle⟩
    · rw [List.filterMap_cons_none hnone]
      exact ih hkey
    · rw [List.filterMap_cons_some hsome]
      refine List.pairwise_cons.mpr ⟨fun n hmem => ?_, ih hkey⟩
      exact Nat.le_trans hle (sealedAt_bounds hkey calls n hmem).1

omit [DecidableEq β] in
/-- Increasing counters are formatted as distinct nonces. -/
lemma sealedAt_distinct (hk : st.k = some k) (calls : List (Call β)) :
    (((steps P st calls).filterMap Step.sealedAt).map
      (nonceBytes : ℕ → Bytes β)).Pairwise (· ≠ ·) := by
  refine List.pairwise_map.mpr
    (List.Pairwise.imp_of_mem ?_ (sealedAt_increasing (P := P) hk calls))
  intro n m hn hm hlt heq
  have hbounds := sealedAt_bounds (P := P) hk calls
  exact absurd (nonceBytes_inj (hbounds n hn).2 (hbounds m hm).2 heq) (Nat.ne_of_lt hlt)

omit [DecidableEq β] in
lemma forall_steps (hk : st.k = some k) {p : Step β → Prop}
    (h : ∀ st : CipherState β, st.k = some k → ∀ call : Call β, p (call.step P st))
    (calls : List (Call β)) : ∀ s ∈ steps P st calls, p s := by
  induction calls generalizing st with
  | nil => exact fun s hmem => absurd hmem List.not_mem_nil
  | cons call calls ih =>
    exact List.forall_mem_cons.mpr ⟨h st hk call, ih (run_key hk call)⟩

omit [DecidableEq β] in
lemma reserved_iff (hP : P.Correct) (hk : st.k = some k) (calls : List (Call β)) :
    (∀ s ∈ steps P st calls, s.before.n = MAX_NONCE → s.Refused) ↔
      AdmitsAll (fun st call => call.Spares P st) (fun st call => (call.run P st).2) st calls := by
  induction calls generalizing st with
  | nil => exact iff_of_true (fun s hmem => absurd hmem List.not_mem_nil) trivial
  | cons call calls ih =>
    rw [steps, List.forall_mem_cons, ih (run_key hk call)]
    exact and_congr_left' (refused_iff hP hk call)

omit [DecidableEq β] in
/-- A run keeps the discipline exactly if each of its calls spares the reserved counter. -/
theorem disciplined_iff (hP : P.Correct) (k : Bytes β) (n : ℕ) (calls : List (Call β)) :
    Disciplined P { k := some k, n := n } calls ↔
      AdmitsAll (fun st call => call.Spares P st) (fun st call => (call.run P st).2)
        { k := some k, n := n } calls := by
  refine ⟨fun h => (reserved_iff hP rfl calls).mp h.reserved, fun h => ?_⟩
  exact {
    increasing := sealedAt_increasing rfl calls
    distinct := sealedAt_distinct rfl calls
    failed := forall_steps rfl (fun st hk call => step_failsQuietly hP hk call) calls
    reserved := (reserved_iff hP rfl calls).mpr h }

/-- The last counter that is not reserved, and what comes in after it. -/
theorem disciplined_last :
    Disciplined symbolic { k := some (zeros KEYLEN), n := MAX_NONCE - 1 }
      [.encrypt [] [], .decrypt [] []] := by
  have hlast : MAX_NONCE - 1 ≠ MAX_NONCE := by decide
  refine (disciplined_iff symbolic_correct _ _ _).mpr ⟨hlast, fun _ => ?_, trivial⟩
  refine ⟨zeros KEYLEN, rfl, length_zeros KEYLEN, fun pt h => ?_⟩
  have hlength := congrArg List.length h
  rw [symbolic_correct.length_encrypt] at hlength
  cases hlength

/-- An encryption at the reserved counter returns. -/
theorem disciplined_reserved :
    ¬ ∀ (k : Bytes SymByte) (n : ℕ) (calls : List (Call SymByte)), n ≤ MAX_NONCE →
      Disciplined symbolic { k := some k, n := n } calls := by
  intro h
  have hdisciplined := h (zeros KEYLEN) MAX_NONCE [.encrypt [] []] (Nat.le_refl MAX_NONCE)
  obtain ⟨⟨msg, hmsg⟩, -⟩ := hdisciplined.reserved _ List.mem_cons_self rfl
  cases hmsg

end CipherState

end Chatbit
