import Mathlib.Data.List.TakeWhile
import Nebularr.PythonValues
import Nebularr.TextEncodings

/-!
# Session tokens

`mint_session_token` and `verify_session_token`: a payload in base64, a dot, and
the payload's signature in base64.  The token is text that a client sends, so it
may be anything; what a signature is right for was minted.

Floating point, the HMAC and the reader of JSON are parameters.  An expiry is an
integer and the clock a float: the code compares floats, the claim of a token is
about the integer.
-/

namespace Nebularr

/-- The exceptions that matter here. -/
inductive Raised
  | typeError | valueError | overflowError | attributeError | other
deriving DecidableEq, Repr

/-- `limit` of `sys.set_int_max_str_digits`. -/
def maxStrDigits : ℕ := 4300

/-- The integers that are written to a text and read from one. -/
def Writable10 (n : Int) : Prop := (Nat.toDigits 10 n.natAbs).length ≤ maxStrDigits

instance (n : Int) : Decidable (Writable10 n) := by
  unfold Writable10
  infer_instance

/-- `json.dumps({"exp": exp, "ep": ep}, separators=(",", ":"))`; the tokens from
before there were epochs have no `ep`. -/
def payloadText (exp : Int) (ep : Option Int) : String :=
  "\x7b\"exp\":" ++ toString exp ++ (ep.map fun n => ",\"ep\":" ++ toString n).getD "" ++ "\x7d"

/-- What the tokens rest on, `K` being the signing keys. -/
structure SessionLibrary (F K : Type) where
  num : PyNumbers F
  /-- `now < exp`, which Python decides as the two numbers are. -/
  beforeInt : F → Int → Bool
  /-- `hmac.new(key, body, hashlib.sha256).digest()`. -/
  mac : K → List UInt8 → List UInt8
  /-- `json.loads`. -/
  loads : List UInt8 → Except Raised (PyValue F)
  /-- Rounding to a float does not move an integer past a float. -/
  beforeInt_of_lessThan : ∀ exp x now, num.ofInt exp = some x → num.lessThan now x = true →
    beforeInt now exp = true
  /-- Integers up to 2 ^ 53 are floats. -/
  ofInt_small : ∀ exp : Int, exp.natAbs ≤ 2 ^ 53 →
    ∃ x, num.ofInt exp = some x ∧ ∀ now, beforeInt now exp = true → num.lessThan now x = true
  /-- `json.loads` reads what `json.dumps` wrote. -/
  loads_payloadText : ∀ exp ep, Writable10 exp → (∀ n, ep = some n → Writable10 n) →
    loads (textBytes (payloadText exp ep)) =
      .ok (.obj (("exp", .int exp) :: (ep.map fun n => ("ep", .int n)).toList))

/-- `token.rpartition(".")` without the dot, of a token that has one. -/
def rpartition (token : List Char) : List Char × List Char :=
  let tail := (token.reverse.takeWhile (· != '.')).reverse
  (token.take (token.length - tail.length - 1), tail)

/-- `hmac.compare_digest`, of two texts. -/
def compareDigest (a b : List Char) : Except Raised Bool :=
  if (a ++ b).all fun c => decide (c.toNat < 128) then .ok (a == b) else .error .typeError

/-- The `try` of `verify_session_token`. -/
def rejectBadValues : Except Raised Bool → Except Raised Bool
  | .error .valueError => .ok false
  | .error .typeError => .ok false
  | answer => answer

namespace SessionLibrary

variable {F K : Type} (lib : SessionLibrary F K)

/-- `_sign`. -/
def sign (key : K) (body : List Char) : List Char :=
  base64Encode (lib.mac key (textBytes (String.ofList body)))

/-- The body of a token. -/
def tokenBody (exp : Int) (ep : Option Int) : List Char :=
  base64Encode (textBytes (payloadText exp ep))

/-- `f"{body}.{_sign(key, body)}"`. -/
def tokenText (key : K) (exp : Int) (ep : Option Int) : String :=
  String.ofList (tokenBody exp ep ++ '.' :: lib.sign key (tokenBody exp ep))

/-- `mint_session_token`, at a second of the clock. -/
def mintSessionToken (clock ttlSeconds : Int) (key : K) (epoch : Int) : Except Raised String :=
  if Writable10 (clock + ttlSeconds) ∧ Writable10 epoch then
    .ok (lib.tokenText key (clock + ttlSeconds) (some epoch))
  else .error .valueError

/-- `int(value)`. -/
def readInt (value : PyValue F) : Except Raised Int :=
  match lib.num.int value with
  | .int n => .ok n
  | .refused => .error .valueError
  | .overflow => .error .overflowError

/-- `float(value)`. -/
def readFloat (value : PyValue F) : Except Raised F :=
  (lib.num.float value).elim
    (.error <|
      match value with
      | .bool _ | .int _ => .overflowError
      | .str _ => .valueError
      | _ => .typeError)
    .ok

/-- What `verify_session_token` guards by its `try`. -/
def checkPayload (expectedEpoch : Int) (now : F) (body : List Char) : Except Raised Bool := do
  let bytes ← (base64Decode body).elim (.error .valueError) .ok
  let payload ← lib.loads bytes
  let fields ← match payload with
    | .obj fields => .ok fields
    | _ => .error .attributeError
  let ep ← lib.readInt ((fields.lookup "ep").getD (.int 0))
  if ep ≠ expectedEpoch then return false
  let exp ← lib.readFloat ((fields.lookup "exp").getD (.int 0))
  return lib.num.lessThan now exp

/-- `verify_session_token`, at a time. -/
def verifySessionToken (key : K) (expectedEpoch : Int) (now : F) (token : String) :
    Except Raised Bool :=
  if token = "" ∨ '.' ∉ token.toList then .ok false
  else
    let (body, signature) := rpartition token.toList
    if body = [] then .ok false
    else do
      let same ← compareDigest (lib.sign key body) signature
      if same then rejectBadValues (lib.checkPayload expectedEpoch now body) else return false

/-! ## The parts of a token -/

/-- The last dot parts a body from its signature. -/
theorem rpartition_append {body signature : List Char} (h : '.' ∉ signature) :
    rpartition (body ++ '.' :: signature) = (body, signature) := by
  have htail : (body ++ '.' :: signature).reverse.takeWhile (· != '.') = signature.reverse := by
    rw [List.reverse_append, List.reverse_cons, List.append_assoc, List.singleton_append,
      List.takeWhile_append_of_pos, List.takeWhile_cons_of_neg (by decide), List.append_nil]
    intro c hc
    exact bne_iff_ne.mpr fun heq => h (heq ▸ List.mem_reverse.mp hc)
  have hlength : (body ++ '.' :: signature).length - signature.length - 1 = body.length := by
    rw [List.length_append, List.length_cons]
    omega
  rw [rpartition, htail, List.reverse_reverse, hlength, List.take_left]

/-- The parts make the token up. -/
theorem append_rpartition {token : List Char} (h : '.' ∈ token) :
    (rpartition token).1 ++ '.' :: (rpartition token).2 = token := by
  obtain ⟨after, before, hsplit, hafter⟩ := List.eq_append_cons_of_mem (List.mem_reverse.mpr h)
  have htoken : token = before.reverse ++ '.' :: after.reverse := by
    rw [← List.reverse_reverse token, hsplit]
    simp
  rw [htoken, rpartition_append (mt List.mem_reverse.mp hafter)]

/-- A signature has no dot. -/
theorem dot_not_mem_sign (key : K) (body : List Char) : '.' ∉ lib.sign key body := fun h =>
  (ascii_of_mem_base64Encode h).2 rfl

/-- Whether `compare_digest` accepts a text. -/
def IsAscii (text : List Char) : Prop := ∀ c ∈ text, c.toNat < 128

/-- A signature is ASCII. -/
theorem isAscii_sign (key : K) (body : List Char) : IsAscii (lib.sign key body) := fun _ h =>
  (ascii_of_mem_base64Encode h).1

/-- The comparison answers for ASCII and raises for anything else. -/
theorem compareDigest_sign (key : K) (body signature : List Char) :
    (IsAscii signature → compareDigest (lib.sign key body) signature =
        .ok (lib.sign key body == signature)) ∧
      (¬ IsAscii signature → compareDigest (lib.sign key body) signature = .error .typeError) := by
  unfold compareDigest
  have hall : ((lib.sign key body ++ signature).all fun c => decide (c.toNat < 128)) = true ↔
      IsAscii signature := by
    simp only [List.all_append, Bool.and_eq_true, List.all_eq_true, decide_eq_true_eq]
    exact and_iff_right (lib.isAscii_sign key body)
  exact ⟨fun h => if_pos (hall.mpr h), fun h => if_neg (mt hall.mp h)⟩

/-! ## What was minted -/

/-- A body that `mint_session_token` made, now or before there were epochs. -/
structure MintedBody (body : List Char) (exp : Int) (ep : Option Int) : Prop where
  body_eq : body = tokenBody exp ep
  exp_writable : Writable10 exp
  ep_writable : ∀ n, ep = some n → Writable10 n

/-- A minted body decodes to its payload. -/
theorem MintedBody.loads {body : List Char} {exp : Int} {ep : Option Int}
    (h : MintedBody body exp ep) :
    ∃ bytes, base64Decode body = some bytes ∧ lib.loads bytes =
      .ok (.obj (("exp", .int exp) :: (ep.map fun n => ("ep", .int n)).toList)) := by
  refine ⟨textBytes (payloadText exp ep), ?_,
    lib.loads_payloadText exp ep h.exp_writable h.ep_writable⟩
  rw [h.body_eq, tokenBody, base64Decode_base64Encode]

/-- A body says when and for which epoch it was minted. -/
theorem MintedBody.unique (lib : SessionLibrary F K) {body : List Char} {exp exp' : Int}
    {ep ep' : Option Int} (h : MintedBody body exp ep) (h' : MintedBody body exp' ep') :
    exp = exp' ∧ ep = ep' := by
  obtain ⟨bytes, hbytes, hloads⟩ := h.loads lib
  obtain ⟨bytes', hbytes', hloads'⟩ := h'.loads lib
  obtain rfl := Option.some.inj (hbytes.symm.trans hbytes')
  rw [hloads] at hloads'
  simp only [Except.ok.injEq, PyValue.obj.injEq, List.cons.injEq, Prod.mk.injEq, PyValue.int.injEq,
    true_and] at hloads'
  obtain ⟨hexp, heps⟩ := hloads'
  refine ⟨hexp, ?_⟩
  cases ep <;> cases ep' <;> simp_all

variable {lib}

/-- **The payload of a minted token.** -/
theorem checkPayload_of_minted {body : List Char} {exp : Int} {ep : Option Int}
    (h : MintedBody body exp ep)
    (epoch : Int) (now : F) :
    lib.checkPayload epoch now body =
      if ep.getD 0 ≠ epoch then .ok false
      else (lib.num.ofInt exp).elim (.error .overflowError) fun x =>
        .ok (lib.num.lessThan now x) := by
  obtain ⟨bytes, hbytes, hloads⟩ := h.loads lib
  have hep : lib.readInt (((("exp", .int exp) :: (ep.map fun n => ("ep", .int n)).toList).lookup
      "ep").getD (.int 0)) = .ok (ep.getD 0) := by
    cases ep <;> rfl
  have hexp : lib.readFloat
      (((("exp", .int exp) :: (ep.map fun n => ("ep", PyValue.int n)).toList).lookup
      "exp").getD (.int 0)) = (lib.num.ofInt exp).elim (.error .overflowError) .ok := by
    rw [List.lookup_cons_self, Option.getD_some]
    rfl
  unfold checkPayload
  rw [hbytes]
  simp only [Option.elim_some, bind, Except.bind, hloads, hep, hexp]
  by_cases hsame : ep.getD 0 = epoch
  · rw [if_neg (not_not.mpr hsame), if_neg (not_not.mpr hsame)]
    cases lib.num.ofInt exp <;> rfl
  · rw [if_pos hsame, if_pos hsame]
    rfl

/-! ## Verifying -/

/-- No signature is forged: what the last part of a token signs was minted. -/
def CanSend (lib : SessionLibrary F K) (key : K) (token : String) : Prop :=
  ∀ body signature, '.' ∈ token.toList → rpartition token.toList = (body, signature) →
    signature = lib.sign key body → ∃ exp ep, MintedBody body exp ep

/-- What is asked of an answer about a token. -/
structure Sound (lib : SessionLibrary F K) (key : K) (epoch : Int) (now : F) (token : String)
    (answer : Bool) : Prop where
  /-- Only a signed body for the epoch that is not expired is accepted. -/
  accepted : answer = true → ∃ body exp ep, '.' ∈ token.toList ∧
    rpartition token.toList = (body, lib.sign key body) ∧ MintedBody body exp ep ∧
      ep.getD 0 = epoch ∧ lib.beforeInt now exp = true
  /-- What was minted for the epoch and is not expired is accepted. -/
  minted : ∀ clock ttlSeconds, lib.mintSessionToken clock ttlSeconds key epoch = .ok token →
    lib.beforeInt now (clock + ttlSeconds) = true → answer = true

/-- The code answers, and what it answers is right. -/
def Verifies (lib : SessionLibrary F K) (key : K) (epoch : Int) (now : F) (token : String) : Prop :=
  ∃ answer, lib.verifySessionToken key epoch now token = .ok answer ∧
    Sound lib key epoch now token answer

/-- When it is so. -/
def Verifiable (lib : SessionLibrary F K) (key : K) (epoch : Int) (now : F) (token : String) :
    Prop :=
  '.' ∉ token.toList ∨ (rpartition token.toList).1 = [] ∨
    IsAscii (rpartition token.toList).2 ∧
      ∀ exp ep, MintedBody (rpartition token.toList).1 exp ep →
        (rpartition token.toList).2 = lib.sign key (rpartition token.toList).1 → ep.getD 0 = epoch →
          ∃ x, lib.num.ofInt exp = some x ∧
            (ep = some epoch → lib.beforeInt now exp = true → lib.num.lessThan now x = true)

/-- A body is not empty. -/
theorem tokenBody_ne_nil (exp : Int) (ep : Option Int) : tokenBody exp ep ≠ [] := by
  intro hnil
  have hbytes : textBytes (payloadText exp ep) = [] := base64Encode_inj (hnil.trans rfl)
  have hempty : payloadText exp ep = "" := textBytes_inj (hbytes.trans rfl)
  have hbrace : '\x7b' ∈ (payloadText exp ep).toList := by simp [payloadText]
  rw [hempty] at hbrace
  cases hbrace

/-- A token is its body, a dot and the signature. -/
theorem toList_tokenText (key : K) (exp : Int) (ep : Option Int) :
    (lib.tokenText key exp ep).toList = tokenBody exp ep ++ '.' ::
      lib.sign key (tokenBody exp ep) :=
  String.toList_ofList

/-- A token is parted into its body and its signature. -/
theorem rpartition_tokenText (key : K) (exp : Int) (ep : Option Int) :
    rpartition (lib.tokenText key exp ep).toList =
      (tokenBody exp ep, lib.sign key (tokenBody exp ep)) := by
  rw [toList_tokenText, rpartition_append (lib.dot_not_mem_sign key _)]

/-- What is minted. -/
theorem mintSessionToken_eq_ok_iff {clock ttlSeconds epoch : Int} {key : K} {token : String} :
    lib.mintSessionToken clock ttlSeconds key epoch = .ok token ↔
      Writable10 (clock + ttlSeconds) ∧ Writable10 epoch ∧
        token = lib.tokenText key (clock + ttlSeconds) (some epoch) := by
  unfold mintSessionToken
  by_cases h : Writable10 (clock + ttlSeconds) ∧ Writable10 epoch
  · rw [if_pos h, Except.ok.injEq, and_iff_right h.1, and_iff_right h.2, eq_comm]
  · rw [if_neg h]
    exact iff_of_false (by simp) fun hall => h ⟨hall.1, hall.2.1⟩

/-- A token that is no token is rejected. -/
theorem verify_of_noParts {key : K} {epoch : Int} {now : F} {token : String}
    (h : '.' ∉ token.toList ∨ (rpartition token.toList).1 = []) :
    lib.verifySessionToken key epoch now token = .ok false := by
  unfold verifySessionToken
  by_cases hdot : '.' ∈ token.toList
  · have hne : token ≠ "" := by
      rintro rfl
      cases hdot
    rw [if_neg (by simp [hdot, hne])]
    simp only [h.resolve_left (not_not.mpr hdot), if_true]
  · rw [if_pos (Or.inr hdot)]

/-- **What becomes of a token**, by its signature. -/
theorem verify_of_parts {key : K} {epoch : Int} {now : F} {token : String}
    {body signature : List Char}
    (hdot : '.' ∈ token.toList) (hparts : rpartition token.toList = (body, signature))
    (hbody : body ≠ []) :
    (¬ IsAscii signature → lib.verifySessionToken key epoch now token = .error .typeError) ∧
      (IsAscii signature → signature ≠ lib.sign key body →
        lib.verifySessionToken key epoch now token = .ok false) ∧
      (signature = lib.sign key body → lib.verifySessionToken key epoch now token =
        rejectBadValues (lib.checkPayload epoch now body)) := by
  have hne : token ≠ "" := by
    rintro rfl
    cases hdot
  have hverify : lib.verifySessionToken key epoch now token =
      (compareDigest (lib.sign key body) signature >>= fun same =>
        if same then rejectBadValues (lib.checkPayload epoch now body) else .ok false) := by
    unfold verifySessionToken
    rw [if_neg (by simp [hdot, hne])]
    simp only [hparts, if_neg hbody]
    rfl
  obtain ⟨hascii, hother⟩ := lib.compareDigest_sign key body signature
  refine ⟨fun h => ?_, fun h hne => ?_, fun h => ?_⟩
  · rw [hverify, hother h]
    rfl
  · rw [hverify, hascii h, beq_false_of_ne hne.symm]
    rfl
  · rw [hverify, hascii (h ▸ lib.isAscii_sign key body), h, beq_self_eq_true]
    rfl

/-- A token whose last part is not the signature of the rest. -/
theorem verifies_unsigned_iff {key : K} {epoch : Int} {now : F} {token : String}
    {body signature : List Char} (hdot : '.' ∈ token.toList)
    (hparts : rpartition token.toList = (body, signature)) (hbody : body ≠ [])
    (hwrong : signature ≠ lib.sign key body) :
    Verifies lib key epoch now token ↔ IsAscii signature := by
  obtain ⟨hraises, hrejects, -⟩ := verify_of_parts hdot hparts hbody
  constructor
  · intro ⟨answer, hanswer, _⟩
    by_contra hnot
    rw [hraises hnot] at hanswer
    cases hanswer
  · intro hascii
    refine ⟨false, hrejects hascii hwrong, ⟨fun h => (nomatch h), ?_⟩⟩
    intro clock ttlSeconds hmint _
    rw [(mintSessionToken_eq_ok_iff.mp hmint).2.2, rpartition_tokenText, Prod.mk.injEq] at hparts
    exact absurd (hparts.1 ▸ hparts.2.symm) hwrong

/-- A token that is signed and minted. -/
theorem verifies_signed_iff {key : K} {epoch : Int} {now : F} {token : String} {body : List Char}
    {exp : Int} {ep : Option Int} (hdot : '.' ∈ token.toList)
    (hparts : rpartition token.toList = (body, lib.sign key body)) (hbody : body ≠ [])
    (hminted : MintedBody body exp ep) :
    Verifies lib key epoch now token ↔
      (ep.getD 0 = epoch → ∃ x, lib.num.ofInt exp = some x ∧
        (ep = some epoch → lib.beforeInt now exp = true → lib.num.lessThan now x = true)) := by
  have hverify : lib.verifySessionToken key epoch now token =
      rejectBadValues (lib.checkPayload epoch now body) :=
        (verify_of_parts hdot hparts hbody).2.2 rfl
  rw [checkPayload_of_minted hminted] at hverify
  -- what the token says if it is one for the epoch
  have hsame : ∀ clock ttlSeconds, lib.mintSessionToken clock ttlSeconds key epoch = .ok token →
      exp = clock + ttlSeconds ∧ ep = some epoch := by
    intro clock ttlSeconds hmint
    obtain ⟨hexp, hepoch, htoken⟩ := mintSessionToken_eq_ok_iff.mp hmint
    rw [htoken, rpartition_tokenText, Prod.mk.injEq] at hparts
    refine hminted.unique lib ⟨hparts.1.symm, hexp, fun n hn => ?_⟩
    obtain rfl := Option.some.inj hn
    exact hepoch
  by_cases hepoch : ep.getD 0 = epoch
  · rw [if_neg (not_not.mpr hepoch)] at hverify
    rw [forall_prop_of_true hepoch]
    cases hfloat : lib.num.ofInt exp with
    | none =>
        rw [hfloat] at hverify
        refine iff_of_false ?_ (by simp)
        intro ⟨answer, hanswer, _⟩
        rw [hverify] at hanswer
        cases hanswer
    | some x =>
        rw [hfloat] at hverify
        have hanswer : lib.verifySessionToken key epoch now token = .ok (lib.num.lessThan now x) :=
          hverify
        constructor
        · intro ⟨answer, hok, hsound⟩
          obtain rfl := Except.ok.inj (hanswer.symm.trans hok)
          refine ⟨x, rfl, fun hep hbefore => ?_⟩
          have htoken : token = lib.tokenText key exp (some epoch) := by
            have htext := append_rpartition hdot
            rw [hparts, hminted.body_eq, hep] at htext
            rw [tokenText, htext, String.ofList_toList]
          refine hsound.minted exp 0 ?_ (by rw [Int.add_zero]; exact hbefore)
          rw [mintSessionToken_eq_ok_iff, Int.add_zero]
          exact ⟨hminted.exp_writable, hminted.ep_writable epoch hep, htoken⟩
        · intro ⟨y, hy, hless⟩
          obtain rfl := Option.some.inj hy
          refine ⟨_, hanswer, ⟨fun htrue => ?_, fun clock ttlSeconds hmint hbefore => ?_⟩⟩
          · exact ⟨body, exp, ep, hdot, hparts, hminted, hepoch,
              lib.beforeInt_of_lessThan exp x now hfloat htrue⟩
          · obtain ⟨rfl, hep⟩ := hsame clock ttlSeconds hmint
            exact hless hep hbefore
  · rw [if_pos hepoch] at hverify
    refine iff_of_true ⟨false, hverify, ⟨fun h => (nomatch h), ?_⟩⟩ fun h => absurd h hepoch
    intro clock ttlSeconds hmint _
    obtain ⟨-, hep⟩ := hsame clock ttlSeconds hmint
    exact absurd (by rw [hep]; rfl) hepoch

/-- **Total and sound.**  For a token that a client can send. -/
theorem verifies_iff_verifiable {key : K} {epoch : Int} {now : F} {token : String}
    (hsent : CanSend lib key token) :
    Verifies lib key epoch now token ↔ Verifiable lib key epoch now token := by
  by_cases hnone : '.' ∉ token.toList ∨ (rpartition token.toList).1 = []
  · refine iff_of_true ⟨false, verify_of_noParts hnone, ⟨fun h => (nomatch h), ?_⟩⟩
      (hnone.imp_right Or.inl)
    intro clock ttlSeconds hmint _
    rw [(mintSessionToken_eq_ok_iff.mp hmint).2.2, rpartition_tokenText, toList_tokenText] at hnone
    exact absurd (hnone.resolve_left (by simp)) (tokenBody_ne_nil _ _)
  · rw [not_or, not_not] at hnone
    obtain ⟨hdot, hbody⟩ := hnone
    rw [Verifiable, or_iff_right (not_not.mpr hdot), or_iff_right hbody]
    have hparts : rpartition token.toList =
        ((rpartition token.toList).1, (rpartition token.toList).2) := rfl
    by_cases hsigned : (rpartition token.toList).2 = lib.sign key (rpartition token.toList).1
    · obtain ⟨exp, ep, hminted⟩ := hsent _ _ hdot hparts hsigned
      rw [hsigned] at hparts
      rw [verifies_signed_iff hdot hparts hbody hminted, hsigned,
        and_iff_right (lib.isAscii_sign key _)]
      constructor
      · intro h exp' ep' hminted' _ hepoch
        obtain ⟨rfl, rfl⟩ := hminted.unique lib hminted'
        exact h hepoch
      · exact fun h hepoch => h exp ep hminted rfl hepoch
    · rw [verifies_unsigned_iff hdot hparts hbody hsigned]
      exact ⟨fun h => ⟨h, fun _ _ _ heq => absurd heq hsigned⟩, And.left⟩

/-- As long as expiries are floats, only a signature that is not ASCII goes wrong. -/
theorem verifiable_iff_of_small {key : K} {epoch : Int} {now : F} {token : String}
    (hsmall : ∀ exp ep, MintedBody (rpartition token.toList).1 exp ep → exp.natAbs ≤ 2 ^ 53) :
    Verifiable lib key epoch now token ↔
      '.' ∉ token.toList ∨ (rpartition token.toList).1 = [] ∨
        IsAscii (rpartition token.toList).2 := by
  refine or_congr_right (or_congr_right (and_iff_left ?_))
  intro exp ep hminted _ _
  obtain ⟨x, hx, hless⟩ := lib.ofInt_small exp (hsmall exp ep hminted)
  exact ⟨x, hx, fun _ => hless now⟩

/-- `request_is_authenticated`, with what comes of its bearer token. -/
def requestIsAuthenticated (lib : SessionLibrary F K) (key : K) (epoch : Int) (now : F)
    (cookie : String)
    (bearer : Bool) : Except Raised Bool :=
  if cookie = "" then .ok bearer
  else (lib.verifySessionToken key epoch now cookie).map fun valid => valid || bearer

/-- A cookie that is no ASCII fails the request, whatever bearer token it has. -/
theorem requestIsAuthenticated_of_not_isAscii {key : K} {epoch : Int} {now : F} {cookie : String}
    (hdot : '.' ∈ cookie.toList) (hbody : (rpartition cookie.toList).1 ≠ [])
    (hsignature : ¬ IsAscii (rpartition cookie.toList).2) (bearer : Bool) :
    requestIsAuthenticated lib key epoch now cookie bearer = .error .typeError := by
  have hne : cookie ≠ "" := by
    rintro rfl
    cases hdot
  rw [requestIsAuthenticated, if_neg hne, (verify_of_parts hdot rfl hbody).1 hsignature]
  rfl

end SessionLibrary

/-! ## An example -/

/-- The integer that a text of `str(n)` spells. -/
def readDecimal : List Char → Int
  | '-' :: digits => -(Nat.ofDigitChars 10 digits 0 : ℕ)
  | digits => (Nat.ofDigitChars 10 digits 0 : ℕ)

/-- An integer is written as a decimal, with a sign if it is negative. -/
theorem toString_int_cases (n : Int) :
    (∃ k : ℕ, n = k ∧ (toString n).toList = Nat.toDigits 10 k) ∨
      ∃ k : ℕ, n = -k ∧ (toString n).toList = '-' :: Nat.toDigits 10 k := by
  cases n with
  | ofNat k => exact Or.inl ⟨k, rfl, Nat.toList_repr⟩
  | negSucc k =>
      refine Or.inr ⟨k + 1, rfl, ?_⟩
      change ("-" ++ Nat.repr (k + 1)).toList = _
      rw [String.toList_append, Nat.toList_repr]
      rfl

/-- A decimal has digits only. -/
theorem isDigit_of_mem_digits {k : ℕ} {c : Char} (h : c ∈ Nat.toDigits 10 k) : c.isDigit = true :=
  Nat.isDigit_of_mem_toDigits (b := 10) (by decide) (by decide) h

/-- An integer reads back. -/
theorem readDecimal_toString (n : Int) : readDecimal (toString n).toList = n := by
  obtain ⟨k, rfl, htext⟩ | ⟨k, rfl, htext⟩ := toString_int_cases n
  · rw [htext]
    have hne : ∀ rest, Nat.toDigits 10 k ≠ '-' :: rest := by
      intro rest heq
      have hdigit := isDigit_of_mem_digits (heq ▸ List.mem_cons_self : '-' ∈ Nat.toDigits 10 k)
      cases hdigit
    unfold readDecimal
    split
    · exact absurd ‹_› (hne _)
    · rw [Nat.ofDigitChars_ten_toDigits]
  · rw [htext, readDecimal, Nat.ofDigitChars_ten_toDigits]

/-- The characters of a number, as against those that end one. -/
def inNumber (c : Char) : Bool := c != ',' && c != '\x7d'

/-- An integer is written in the characters of a number. -/
theorem inNumber_of_mem_toString {n : Int} {c : Char} (h : c ∈ (toString n).toList) :
    inNumber c = true := by
  have hdigit : ∀ k : ℕ, c ∈ Nat.toDigits 10 k → inNumber c = true := by
    intro k hc
    have hascii := isDigit_of_mem_digits hc
    rw [inNumber, Bool.and_eq_true, bne_iff_ne, bne_iff_ne]
    constructor <;> rintro rfl <;> cases hascii
  obtain ⟨k, _, htext⟩ | ⟨k, _, htext⟩ := toString_int_cases n
  · exact hdigit k (htext ▸ h)
  · rw [htext] at h
    rcases List.mem_cons.mp h with rfl | hc
    · rfl
    · exact hdigit k hc

/-- The fields of a payload, after its first seven characters. -/
def readFields (text : List Char) : List (String × PyValue Int) :=
  ("exp", .int (readDecimal (text.takeWhile inNumber))) ::
    match text.dropWhile inNumber with
    | ',' :: fields => [("ep", .int (readDecimal ((fields.drop 5).takeWhile inNumber)))]
    | _ => []

/-- A reader of payloads and nothing else. -/
def readPayload (bytes : List UInt8) : Except Raised (PyValue Int) :=
  .ok (.obj (readFields ((bytesText (fun _ => "") bytes).toList.drop 7)))

/-- A payload reads back. -/
theorem readPayload_payloadText (exp : Int) (ep : Option Int) :
    readPayload (textBytes (payloadText exp ep)) =
      .ok (.obj (("exp", .int exp) :: (ep.map fun n => ("ep", .int n)).toList)) := by
  have hrun : ∀ (n : Int) (rest : List Char), (rest.head? = some ',' ∨ rest.head? = some '\x7d') →
      ((toString n).toList ++ rest).takeWhile inNumber = (toString n).toList ∧
        ((toString n).toList ++ rest).dropWhile inNumber = rest := by
    intro n rest hrest
    refine span_run (fun c hc => inNumber_of_mem_toString hc) fun c hc => ?_
    obtain hhead | hhead := hrest <;>
      (obtain rfl := Option.some.inj (hc.symm.trans hhead)
       rfl)
  unfold readPayload
  rw [bytesText_textBytes]
  cases ep with
  | none =>
      have htext : (payloadText exp none).toList.drop 7 = (toString exp).toList ++ ['\x7d'] := by
        simp [payloadText]
      obtain ⟨hexp, hend⟩ := hrun exp ['\x7d'] (Or.inr rfl)
      rw [htext, readFields, hexp, hend, readDecimal_toString]
      rfl
  | some n =>
      have htext : (payloadText exp (some n)).toList.drop 7 =
          (toString exp).toList ++ ',' :: '"' :: 'e' :: 'p' :: '"' ::
            ':' :: ((toString n).toList ++ ['\x7d']) := by
        simp [payloadText]
      obtain ⟨hexp, hep⟩ := hrun exp
        (',' :: '"' :: 'e' :: 'p' :: '"' :: ':' :: ((toString n).toList ++ ['\x7d'])) (Or.inl rfl)
      rw [htext, readFields, hexp, hep, readDecimal_toString]
      simp only [List.drop_succ_cons, List.drop_zero, (hrun n ['\x7d'] (Or.inr rfl)).1,
        readDecimal_toString]
      rfl

/-- Whole numbers, a signature that is the same for all, and the reader above. -/
def plainLibrary : SessionLibrary Int Unit where
  num := wholeNumbers
  beforeInt now exp := decide (now < exp)
  mac _ _ := [115, 105, 103]
  loads := readPayload
  beforeInt_of_lessThan _ _ _ hx h := by
    obtain rfl := Option.some.inj hx
    exact h
  ofInt_small exp _ := ⟨exp, rfl, fun _ h => h⟩
  loads_payloadText exp ep _ _ := readPayload_payloadText exp ep

namespace SessionLibrary

/-- The token of epoch 1 that expires at 100. -/
theorem canSend_tokenText : CanSend plainLibrary () (plainLibrary.tokenText () 100 (some 1)) := by
  intro body signature _ hparts _
  rw [rpartition_tokenText, Prod.mk.injEq] at hparts
  refine ⟨100, some 1, ⟨hparts.1.symm, by decide, fun n hn => ?_⟩⟩
  obtain rfl := Option.some.inj hn
  decide

/-- A token in its time. -/
theorem verifies_tokenText :
    CanSend plainLibrary () (plainLibrary.tokenText () 100 (some 1)) ∧
      (Verifies plainLibrary () 1 99 (plainLibrary.tokenText () 100 (some 1)) ↔
        Verifiable plainLibrary () 1 99 (plainLibrary.tokenText () 100 (some 1))) :=
  ⟨canSend_tokenText, verifies_iff_verifiable canSend_tokenText⟩

/-- A cookie whose signature has an accent. -/
theorem not_verifies_accented :
    ¬ ∀ token, CanSend plainLibrary () token → Verifies plainLibrary () 0 0 token := by
  intro h
  have hdot : '.' ∈ "a.\u00e9".toList := by decide
  have hparts : rpartition "a.\u00e9".toList = (['a'], ['\u00e9']) := by decide
  have hsent : CanSend plainLibrary () "a.\u00e9" := by
    intro body signature _ hparts' hsigned
    obtain ⟨rfl, rfl⟩ := Prod.mk.inj (hparts.symm.trans hparts')
    exact absurd hsigned (by decide)
  obtain ⟨answer, hanswer, _⟩ := h _ hsent
  have hascii : ¬ IsAscii ['\u00e9'] := fun hall => absurd (hall _ List.mem_cons_self) (by decide)
  rw [(verify_of_parts hdot hparts (by decide)).1 hascii] at hanswer
  cases hanswer

end SessionLibrary

end Nebularr
