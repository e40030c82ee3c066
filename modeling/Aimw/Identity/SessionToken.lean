import Aimw.Lib.Text
import Aimw.Models

/-!
# Session tokens

`identity/session_token.py`: `SessionTokenIssuer` with `issue` and `verify`.  HMAC-SHA256 and the floating point
sum of a time and the lifetime are parameters.

* `bound_iff_cuts_issued` — a token is good for the pair it was issued for, and for nothing else, exactly when no
  other pair gives the same signed text.
-/

namespace Aimw.Identity

open Lib

/-! ## What is not in the repository -/

def isHexDigit (c : Char) : Bool := c ∈ "0123456789abcdef".toList

/-- `hmac.new(secret, message, sha256).hexdigest()`. -/
structure Hmac where
  hexdigest : ByteArray → ByteArray → String
  hex : ∀ secret message, ∀ c ∈ (hexdigest secret message).toList, isHexDigit c = true

/-- HMAC, the sum of a time and a lifetime in floating point, and the characters `int` reads. -/
structure Runtime where
  hmac : Hmac
  addSeconds : ℚ → ℤ → ℚ
  chars : CharTable

/-- `int(x)` of a number: cut towards zero. -/
def truncate (x : ℚ) : ℤ := if 0 ≤ x then ⌊x⌋ else ⌈x⌉

/-- `str(n)`, in an f-string. -/
def formatInt (n : ℤ) : Except Exc String :=
  match pyIntStr n with
  | some s => .ok (String.ofList s)
  | none => .error (.exception "Exceeds the limit (4300 digits) for integer string conversion")

/-- `hmac.compare_digest` of two strings. -/
def compareDigest (a b : String) : Except Exc Bool :=
  if a.toList.all (·.toNat < 128) && b.toList.all (·.toNat < 128) then .ok (a == b)
  else .error (.exception "comparing strings with non-ASCII characters is not supported")

/-! ## `SessionTokenIssuer` -/

/-- The message that is signed, as text. -/
def signedText (sessionId agentId expiry : String) : String := sessionId ++ ":" ++ agentId ++ ":" ++ expiry

/-- `_sign`. -/
def sign (rt : Runtime) (secret : ByteArray) (sessionId agentId : String) (expiryEpoch : ℤ) : Except Exc String := do
  let expiry ← formatInt expiryEpoch
  .ok (rt.hmac.hexdigest secret (signedText sessionId agentId expiry).toUTF8)

structure SessionTokenIssuer where
  secret : ByteArray
  ttlSeconds : ℤ
  secret_ne : secret.size ≠ 0

/-- `SessionTokenIssuer(secret, ttl_seconds)`. -/
def SessionTokenIssuer.init (secret : ByteArray) (ttlSeconds : ℤ) : Except Exc SessionTokenIssuer :=
  if h : secret.size = 0 then .error (.exception "secret must be non-empty") else .ok ⟨secret, ttlSeconds, h⟩

namespace SessionTokenIssuer

variable (rt : Runtime) (issuer : SessionTokenIssuer)

/-- When a token issued at the time `now` expires. -/
def expiryEpoch (now : ℚ) : ℤ := truncate (rt.addSeconds now issuer.ttlSeconds)

def issue (context : ExecutionContext) (now : ℚ) : Except Exc String := do
  let expiryEpoch := issuer.expiryEpoch rt now
  let signature ← sign rt issuer.secret context.sessionId context.agentId expiryEpoch
  let expiry ← formatInt expiryEpoch
  .ok (context.sessionId ++ "." ++ context.agentId ++ "." ++ expiry ++ "." ++ signature)

/-- `verify`; a credential that does not parse is a `ValueError`, which is caught. -/
def verify (credential : String) (context : ExecutionContext) (now : ℚ) : Except Exc Bool :=
  match splitMax '.' 3 credential.toList with
  | [sessionId, agentId, expiryStr, signature] =>
    match pyInt rt.chars expiryStr with
    | none => .ok false
    | some expiryEpoch =>
      if String.ofList sessionId ≠ context.sessionId ∨ String.ofList agentId ≠ context.agentId then .ok false
      else if now > expiryEpoch then .ok false
      else do
        let expectedSignature ← sign rt issuer.secret (String.ofList sessionId) (String.ofList agentId) expiryEpoch
        compareDigest (String.ofList signature) expectedSignature
  | _ => .ok false

end SessionTokenIssuer

/-! ## What a signature binds -/

/-- The tokens of a session token issuer: contexts and the times at which `issue` was called for them. -/
abbrev Issued : Type := List (ExecutionContext × ℚ)

section

variable (rt : Runtime) (issuer : SessionTokenIssuer) (issued : Issued)

/-- A token for this pair, with this expiry, was issued. -/
def IssuedFor (sessionId agentId : String) (expiry : ℤ) : Prop :=
  ∃ p ∈ issued, (∃ token, issuer.issue rt p.1 p.2 = .ok token) ∧
    p.1.sessionId = sessionId ∧ p.1.agentId = agentId ∧ issuer.expiryEpoch rt p.2 = expiry

/-- The part of a credential that stands for its signature. -/
def presentedSignature (credential : String) : Option String :=
  (splitMax '.' 3 credential.toList)[3]?.map String.ofList

/-- The credential is put together from signatures of issued tokens and from text that is nobody's signature: if
its signature is that of any message, this message was signed for a token. -/
def Unforged (credential : String) : Prop :=
  ∀ message, presentedSignature credential = some (rt.hmac.hexdigest issuer.secret message) →
    ∃ sessionId agentId expiry s, IssuedFor rt issuer issued sessionId agentId expiry ∧ formatInt expiry = .ok s ∧
      message = (signedText sessionId agentId s).toUTF8

/-- A credential that is accepted comes from a token that was issued for this session and agent, and that has not
expired. -/
def Bound : Prop :=
  ∀ credential, Unforged rt issuer issued credential → ∀ context now,
    issuer.verify rt credential context now = .ok true →
    ∃ expiry, IssuedFor rt issuer issued context.sessionId context.agentId expiry ∧ now ≤ expiry

/-- Wherever the text `session_id:agent_id` of a token is cut at a colon into two parts without a dot, a token that
lasts as long was issued for these two parts. -/
def CutsIssued : Prop :=
  ∀ sessionId agentId expiry, IssuedFor rt issuer issued sessionId agentId expiry →
    ∀ s a : String, s ++ ":" ++ a = sessionId ++ ":" ++ agentId → '.' ∉ s.toList → '.' ∉ a.toList →
    ∃ expiry', IssuedFor rt issuer issued s a expiry' ∧ expiry ≤ expiry'

end

/-! ## Lemmas -/

variable {rt : Runtime} {issuer : SessionTokenIssuer} {issued : Issued}

lemma formatInt_eq_ok_iff {n : ℤ} {s : String} : formatInt n = .ok s ↔ pyIntStr n = some s.toList := by
  unfold formatInt
  cases pyIntStr n with
  | none => simp
  | some l =>
    rw [Except.ok.injEq, Option.some.injEq]
    constructor
    · rintro rfl
      simp
    · rintro rfl
      simp

lemma toList_of_formatInt {n : ℤ} {s : String} (h : formatInt n = .ok s) : s.toList = decimal n := by
  have h := formatInt_eq_ok_iff.1 h
  unfold pyIntStr at h
  split_ifs at h
  exact (Option.some.inj h).symm

lemma colon_not_mem_of_formatInt {n : ℤ} {s : String} (h : formatInt n = .ok s) : ':' ∉ s.toList := by
  rw [toList_of_formatInt h]
  exact colon_not_mem_decimal n

/-- The signed text determines the expiry, and the two ids up to where they are cut. -/
lemma signedText_inj {s a s' a' x x' : String} {n n' : ℤ} (hx : formatInt n = .ok x) (hx' : formatInt n' = .ok x')
    (h : signedText s a x = signedText s' a' x') : s ++ ":" ++ a = s' ++ ":" ++ a' ∧ n = n' := by
  have hl : (s ++ ":" ++ a).toList ++ ':' :: x.toList = (s' ++ ":" ++ a').toList ++ ':' :: x'.toList := by
    simpa [signedText, String.toList_append] using congrArg String.toList h
  obtain ⟨h1, h2⟩ := append_cons_inj_last (colon_not_mem_of_formatInt hx) (colon_not_mem_of_formatInt hx') hl
  refine ⟨String.toList_inj.1 h1, ?_⟩
  rw [toList_of_formatInt hx, toList_of_formatInt hx'] at h2
  exact decimal_inj h2

/-- A digest is ASCII text. -/
lemma hexdigest_ascii (k m : ByteArray) : (rt.hmac.hexdigest k m).toList.all (·.toNat < 128) = true := by
  rw [List.all_eq_true]
  intro c hc
  have hlt : ∀ c ∈ "0123456789abcdef".toList, decide (c.toNat < 128) = true := List.all_iff_forall_prop.1 (by decide)
  exact hlt c (of_decide_eq_true (rt.hmac.hex k m c hc))

lemma compareDigest_hexdigest {a : String} {k m : ByteArray} :
    compareDigest a (rt.hmac.hexdigest k m) = .ok true ↔ a = rt.hmac.hexdigest k m := by
  unfold compareDigest
  rw [hexdigest_ascii, Bool.and_true]
  constructor
  · intro h
    split_ifs at h
    simpa using h
  · rintro rfl
    rw [if_pos (hexdigest_ascii k m), beq_self_eq_true]

/-- **What `verify` accepts.** -/
theorem verify_eq_true_iff {credential : String} {context : ExecutionContext} {now : ℚ} :
    issuer.verify rt credential context now = .ok true ↔
      ∃ expiryStr expiry x, pyInt rt.chars expiryStr = some expiry ∧ now ≤ expiry ∧ formatInt expiry = .ok x ∧
        splitMax '.' 3 credential.toList = [context.sessionId.toList, context.agentId.toList, expiryStr,
          (rt.hmac.hexdigest issuer.secret (signedText context.sessionId context.agentId x).toUTF8).toList] := by
  unfold SessionTokenIssuer.verify
  constructor
  · intro h
    split at h
    · next p₀ p₁ p₂ p₃ hsplit =>
      split at h
      · cases h
      · next expiry hint =>
        split_ifs at h with hids hlate
        · cases h
        · cases h
        · push Not at hids hlate
          obtain ⟨h₀, h₁⟩ := hids
          cases hx : formatInt expiry with
          | error e => simp [sign, hx, bind, Except.bind] at h
          | ok x =>
            simp only [sign, hx, bind, Except.bind] at h
            have hsig := compareDigest_hexdigest.1 h
            refine ⟨p₂, expiry, x, hint, hlate, hx, ?_⟩
            rw [hsplit, ← h₀, ← h₁, ← hsig]
            simp
    · cases h
  · rintro ⟨expiryStr, expiry, x, hint, hlate, hx, hsplit⟩
    simp only [hsplit, hint, String.ofList_toList, ne_eq, not_true, or_self, if_false, not_lt.2 hlate, sign, hx,
      bind, Except.bind, compareDigest_hexdigest]

lemma IssuedFor.formatInt {sessionId agentId : String} {expiry : ℤ}
    (h : IssuedFor rt issuer issued sessionId agentId expiry) :
    ∃ x, formatInt expiry = .ok x := by
  obtain ⟨p, -, ⟨token, htoken⟩, -, -, rfl⟩ := h
  cases hx : Identity.formatInt (issuer.expiryEpoch rt p.2) with
  | ok x => exact ⟨x, rfl⟩
  | error e => simp [SessionTokenIssuer.issue, sign, hx, bind, Except.bind] at htoken

/-- A credential put together from two parts without a dot and an expiry. -/
lemma splitMax_credential {s a x g : String} (hs : '.' ∉ s.toList) (ha : '.' ∉ a.toList) (hx : '.' ∉ x.toList) :
    splitMax '.' 3 (s ++ "." ++ a ++ "." ++ x ++ "." ++ g).toList = [s.toList, a.toList, x.toList, g.toList] := by
  have hlist : (s ++ "." ++ a ++ "." ++ x ++ "." ++ g).toList =
      s.toList ++ '.' :: (a.toList ++ '.' :: (x.toList ++ '.' :: g.toList)) := by
    simp [String.toList_append]
  rw [hlist, splitMax_append hs, splitMax_append ha, splitMax_append hx, splitMax]

lemma presentedSignature_of_split {credential g : String} {p q r : List Char}
    (h : splitMax '.' 3 credential.toList = [p, q, r, g.toList]) : presentedSignature credential = some g := by
  simp [presentedSignature, h]

/-- A credential cut from the text of an issued token is unforged. -/
lemma unforged_of_issued
    (hideal : ∀ m m', rt.hmac.hexdigest issuer.secret m = rt.hmac.hexdigest issuer.secret m' → m = m')
    {sessionId agentId x credential : String} {expiry : ℤ} (h : IssuedFor rt issuer issued sessionId agentId expiry)
    (hx : formatInt expiry = .ok x)
    (hsig : presentedSignature credential =
      some (rt.hmac.hexdigest issuer.secret (signedText sessionId agentId x).toUTF8)) :
    Unforged rt issuer issued credential := by
  intro message hmessage
  rw [hsig, Option.some.injEq] at hmessage
  exact ⟨sessionId, agentId, expiry, x, h, hx, (hideal _ _ hmessage).symm⟩

/-- The signature of a token, put behind another cut of its text, is accepted. -/
lemma exists_credential_of_cut
    (hideal : ∀ m m', rt.hmac.hexdigest issuer.secret m = rt.hmac.hexdigest issuer.secret m' → m = m')
    {sessionId agentId s a : String} {expiry : ℤ} (hissued : IssuedFor rt issuer issued sessionId agentId expiry)
    (hcut : s ++ ":" ++ a = sessionId ++ ":" ++ agentId) (hs : '.' ∉ s.toList) (ha : '.' ∉ a.toList) :
    ∃ credential, Unforged rt issuer issued credential ∧
      issuer.verify rt credential { userId := "", agentId := a, sessionId := s, roles := [] } expiry = .ok true := by
  obtain ⟨x, hx⟩ := hissued.formatInt
  have htext : signedText s a x = signedText sessionId agentId x := by
    simp only [signedText, hcut]
  have hdot : '.' ∉ x.toList := by
    rw [toList_of_formatInt hx]
    exact dot_not_mem_decimal expiry
  have hsplit := splitMax_credential (g := rt.hmac.hexdigest issuer.secret (signedText sessionId agentId x).toUTF8)
    hs ha hdot
  refine ⟨_, unforged_of_issued hideal hissued hx (presentedSignature_of_split hsplit), verify_eq_true_iff.2 ?_⟩
  exact ⟨x.toList, expiry, x, pyInt_pyIntStr rt.chars (formatInt_eq_ok_iff.1 hx), le_rfl, hx,
    by simpa only [htext] using hsplit⟩

/-- Ids without a colon have one cut only. -/
theorem cutsIssued_of_no_colon
    (h : ∀ p ∈ issued, ':' ∉ p.1.sessionId.toList ∧ ':' ∉ p.1.agentId.toList) : CutsIssued rt issuer issued := by
  intro sessionId agentId expiry hissued s a hcut _ _
  obtain ⟨p, hp, -, rfl, rfl, -⟩ := id hissued
  obtain ⟨hs, ha⟩ := h p hp
  have hl : s.toList ++ ':' :: a.toList = p.1.sessionId.toList ++ ':' :: p.1.agentId.toList := by
    simpa [String.toList_append] using congrArg String.toList hcut
  -- the cut at the only colon
  have hs' : ':' ∉ s.toList ∧ ':' ∉ a.toList := by
    have hcount := congrArg (List.count ':') hl
    simp only [List.count_append, List.count_cons_self, List.count_eq_zero_of_not_mem hs,
      List.count_eq_zero_of_not_mem ha] at hcount
    constructor <;> refine List.count_eq_zero.1 ?_ <;> omega
  obtain ⟨h1, h2⟩ := append_cons_inj hs'.1 hs hl
  obtain rfl := String.toList_inj.1 h1
  obtain rfl := String.toList_inj.1 h2
  exact ⟨expiry, hissued, le_rfl⟩

/-! ## A sample issuer -/

/-- The bytes of a message in unary: an injective text of hexadecimal digits. -/
def unary (m : ByteArray) : List Char := m.data.toList.flatMap fun b => List.replicate b.toNat '0' ++ ['1']

lemma unary_inj {m m' : ByteArray} (h : unary m = unary m') : m = m' := by
  have hlist : ∀ l l' : List UInt8, l.flatMap (fun b => List.replicate b.toNat '0' ++ ['1']) =
      l'.flatMap (fun b => List.replicate b.toNat '0' ++ ['1']) → l = l' := by
    intro l
    induction l with
    | nil =>
      intro l' hl
      cases l' with
      | nil => rfl
      | cons b l' => simp at hl
    | cons b l ih =>
      intro l' hl
      cases l' with
      | nil => simp at hl
      | cons b' l' =>
        simp only [List.flatMap_cons, List.append_assoc, List.singleton_append] at hl
        obtain ⟨h1, h2⟩ := append_cons_inj (by simp) (by simp) hl
        have hb : b = b' := UInt8.toNat_inj.1 (by simpa using congrArg List.length h1)
        rw [hb, ih l' h2]
  have hdata : m.data.toList = m'.data.toList := hlist _ _ h
  exact ByteArray.ext (Array.toList_inj.1 hdata)

/-- HMAC-SHA256 as far as it is known: `digest` is that of `message`, other messages have digests of their own. -/
def knownHmac (message digest : String) (h : ∀ c ∈ digest.toList, isHexDigit c = true) : Hmac where
  hexdigest _ m := if m.data = message.toUTF8.data then digest else String.ofList (unary m)
  hex _ m c hc := by
    split_ifs at hc with hm
    · exact h c hc
    · rw [String.toList_ofList, unary, List.mem_flatMap] at hc
      obtain ⟨b, -, hb⟩ := hc
      rcases List.mem_append.1 hb with hb | hb
      · obtain rfl := List.eq_of_mem_replicate hb
        decide
      · obtain rfl := List.mem_singleton.1 hb
        decide

lemma knownHmac_inj {message digest : String} (h : ∀ c ∈ digest.toList, isHexDigit c = true)
    (hd : '2' ∈ digest.toList) (k m m' : ByteArray)
    (heq : (knownHmac message digest h).hexdigest k m = (knownHmac message digest h).hexdigest k m') : m = m' := by
  have hne : ∀ m, digest ≠ String.ofList (unary m) := by
    rintro m rfl
    rw [String.toList_ofList, unary, List.mem_flatMap] at hd
    obtain ⟨b, -, hb⟩ := hd
    rcases List.mem_append.1 hb with hb | hb
    · exact absurd (List.eq_of_mem_replicate hb) (by decide)
    · exact absurd (List.mem_singleton.1 hb) (by decide)
  simp only [knownHmac] at heq
  split_ifs at heq with h1 h2 h2
  · exact ByteArray.ext (h1.trans h2.symm)
  · exact absurd heq (hne m')
  · exact absurd heq.symm (hne m)
  · exact unary_inj (String.ofList_injective heq)

/-- The secret is `b"test-secret"`; sums of small numbers are exact. -/
def sampleIssuer : SessionTokenIssuer where
  secret := "test-secret".toUTF8
  ttlSeconds := 900
  secret_ne := by decide

def sampleRuntime (message digest : String) (h : ∀ c ∈ digest.toList, isHexDigit c = true) : Runtime where
  hmac := knownHmac message digest h
  addSeconds t n := t + n
  chars := .ascii

def tokenContext (sessionId agentId : String) : ExecutionContext where
  userId := "u"
  agentId
  sessionId
  roles := []

lemma sample_issuedFor (message digest : String) (h : ∀ c ∈ digest.toList, isHexDigit c = true) (s a : String) :
    IssuedFor (sampleRuntime message digest h) sampleIssuer [(tokenContext s a, 0)] s a 900 := by
  have hexpiry : sampleIssuer.expiryEpoch (sampleRuntime message digest h) 0 = 900 := by
    norm_num [SessionTokenIssuer.expiryEpoch, sampleRuntime, sampleIssuer, truncate]
  have hformat : formatInt 900 = .ok "900" := by decide
  refine ⟨_, List.mem_singleton_self _, ⟨s ++ "." ++ a ++ "." ++ "900" ++ "." ++
    (knownHmac message digest h).hexdigest sampleIssuer.secret (signedText s a "900").toUTF8, ?_⟩, rfl, rfl, hexpiry⟩
  simp only [SessionTokenIssuer.issue, hexpiry, sign, hformat, bind, Except.bind]
  rfl

/-! ## Binding -/

/-- **Tokens are bound to one pair exactly when every cut of a signed text was issued.**  The signatures of
different messages differ. -/
theorem bound_iff_cuts_issued
    (hideal : ∀ m m', rt.hmac.hexdigest issuer.secret m = rt.hmac.hexdigest issuer.secret m' → m = m') :
    Bound rt issuer issued ↔ CutsIssued rt issuer issued := by
  constructor
  · intro hbound sessionId agentId expiry hissued s a hcut hs ha
    obtain ⟨credential, hunforged, hverify⟩ := exists_credential_of_cut hideal hissued hcut hs ha
    obtain ⟨expiry', hissued', hle⟩ := hbound credential hunforged _ _ hverify
    exact ⟨expiry', hissued', by exact_mod_cast hle⟩
  · -- an accepted signature is that of an issued token, whose text the credential cuts at a colon
    intro hcuts credential hunforged context now hverify
    obtain ⟨expiryStr, expiry, x, -, hnow, hx, hsplit⟩ := verify_eq_true_iff.1 hverify
    obtain ⟨sessionId, agentId, expiry', y, hissued, hy, hmessage⟩ :=
      hunforged (signedText context.sessionId context.agentId x).toUTF8 (presentedSignature_of_split hsplit)
    obtain ⟨hids, rfl⟩ := signedText_inj hx hy (String.toByteArray_inj.1 hmessage)
    have hdots : ∀ p ∈ [context.sessionId.toList, context.agentId.toList, expiryStr], '.' ∉ p := by
      have hdots := splitMax_dropLast '.' 3 credential.toList
      rwa [hsplit] at hdots
    obtain ⟨expiry', hissued', hle⟩ := hcuts _ _ _ hissued context.sessionId context.agentId hids
      (hdots _ (by simp)) (hdots _ (by simp))
    exact ⟨expiry', hissued', hnow.trans (by exact_mod_cast hle)⟩

def boundDigest : String := "4891e27535ddeb0dbd083ce52a3c91639447d9e6c55e12a508a3797c44834dce"

lemma boundDigest_hex : ∀ c ∈ boundDigest.toList, isHexDigit c = true := List.all_iff_forall_prop.1 (by decide)

theorem bound_iff_cuts_issued_sample :
    Bound (sampleRuntime "s1:a1:900" boundDigest boundDigest_hex) sampleIssuer [(tokenContext "s1" "a1", 0)] :=
  (bound_iff_cuts_issued (knownHmac_inj boundDigest_hex (by decide) _)).2 (cutsIssued_of_no_colon (by simp [tokenContext]))

def cutDigest : String := "8a1263b95798fbcd1ae7e2184e783efc538117fca728a635f101c172dbea7948"

lemma cutDigest_hex : ∀ c ∈ cutDigest.toList, isHexDigit c = true := List.all_iff_forall_prop.1 (by decide)

def cutRuntime : Runtime := sampleRuntime "a:b:c:900" cutDigest cutDigest_hex

/-- The token of session `a:b` and agent `c` opens session `a` to agent `b:c`. -/
theorem token_of_other_pair :
    (∀ k m m', cutRuntime.hmac.hexdigest k m = cutRuntime.hmac.hexdigest k m' → m = m') ∧
      ¬ Bound cutRuntime sampleIssuer [(tokenContext "a:b" "c", 0)] := by
  refine ⟨knownHmac_inj cutDigest_hex (by decide), fun hbound => ?_⟩
  obtain ⟨credential, hunforged, hverify⟩ := exists_credential_of_cut (knownHmac_inj cutDigest_hex (by decide) _)
    (sample_issuedFor "a:b:c:900" cutDigest cutDigest_hex "a:b" "c") (s := "a") (a := "b:c") rfl (by decide) (by decide)
  obtain ⟨expiry, ⟨p, hp, -, hs, -⟩, -⟩ := hbound credential hunforged _ _ hverify
  obtain rfl := List.mem_singleton.1 hp
  exact absurd hs (by decide)

end Aimw.Identity
