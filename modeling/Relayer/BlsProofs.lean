import Relayer.BitMaskProofs
import Relayer.LinearFormsProofs

/-! # The bls package, and its linear model

    The BLS library is not part of the repository.  `Bls` lists the
    operations the relayer calls, over arbitrary types of public keys,
    signatures and private keys; `Aggregate` is written `+` and the zero
    values `0`.

    `linearBls` is the discrete-log reading of the library: keys and
    signatures are written by their discrete logarithms, a hash point is
    multiplied by a logarithm, and a multisignature is valid when one linear
    equation holds (`verifyMultisig_iff`).  Two instances of it are used
    later: `formBls`, where logarithms are linear forms in the secret keys
    and hash points are independent, and `intBls`, which computes. -/

namespace RelayerBls

open BitMask LinearForms

/-- The operations of the bls package that the relayer uses. -/
structure Bls (PK SG SK : Type) where
  /-- `Signature.VerifyMultisig(aggPublicKey, publicKey, message, bitmask)`. -/
  verifyMultisig : SG → PK → PK → String → ℕ → Bool
  /-- `PrivateKey.Multisign(message, aggPublicKey, membershipKey)`. -/
  multisign : SK → String → PK → SG → SG
  /-- `PrivateKey.GenerateMembershipKeyPart(index, aggPublicKey, anticoef)`. -/
  generateMembershipKeyPart : SK → ℕ → PK → ℤ → SG
  /-- `Signature.VerifyMembershipKeyPart(aggPublicKey, publicKey, anticoef,
      index)`. -/
  verifyMembershipKeyPart : SG → PK → PK → ℤ → ℕ → Bool
  /-- Go's zero value of `Signature`, the one no function returned. -/
  emptySignature : SG
  /-- Go's zero value of `PublicKey`. -/
  emptyPublicKey : PK
  /-- One coefficient for each public key. -/
  calculateAntiRogueCoefficients : List PK → List ℤ
  aggregatePublicKeys : List PK → List ℤ → PK
  coefficients_length :
    ∀ pks, (calculateAntiRogueCoefficients pks).length = pks.length

/-- The Go conversion `byte(i)`. -/
def byte (i : ℕ) : ℕ := i % 256

/-! ## The linear model -/

/-- The hash points of an epoch key: `onMessage E body` multiplies
    `H(E, body)` and `onIndex E i` multiplies `H2(E, i)` by a discrete
    logarithm. -/
structure HashPoints (F G : Type) [AddCommGroup F] [AddCommGroup G] where
  onMessage : F → String → F →+ G
  onIndex : F → ℕ → F →+ G

variable {F G : Type} [AddCommGroup F] [AddCommGroup G]

/-- The right-hand side of the multisignature equation. -/
def multisigValue (H : HashPoints F G) (E P : F) (body : String) (mask : ℕ) :
    G :=
  H.onMessage E body P + ∑ i ∈ bitsOf mask, H.onIndex E i E

/-- The bls package in the linear model, with any choice of anti-rogue
    coefficients. -/
def linearBls [DecidableEq G] (H : HashPoints F G) (coefs : List F → List ℤ)
    (hlen : ∀ pks, (coefs pks).length = pks.length) : Bls F G F where
  verifyMultisig S E P body mask := decide (S = multisigValue H E P body mask)
  multisign sk body E mk := H.onMessage E body sk + mk
  generateMembershipKeyPart sk i E a := H.onIndex E i (a • sk)
  verifyMembershipKeyPart part E pk a i :=
    decide (part = H.onIndex E i (a • pk))
  emptySignature := 0
  emptyPublicKey := 0
  calculateAntiRogueCoefficients := coefs
  aggregatePublicKeys pks as := (List.zipWith (fun a pk => a • pk) as pks).sum
  coefficients_length := hlen

/-- In the linear model a signature verifies if it is the expected value. -/
theorem verifyMultisig_iff [DecidableEq G] {H : HashPoints F G}
    {coefs : List F → List ℤ}
    {hlen : ∀ pks, (coefs pks).length = pks.length}
    {S : G} {E P : F} {body : String} {mask : ℕ} :
    (linearBls H coefs hlen).verifyMultisig S E P body mask = true
      ↔ S = multisigValue H E P body mask :=
  decide_eq_true_iff

/-! ## Logarithms as linear forms -/

/-- Hash points named by what is hashed. -/
inductive HashPoint (F : Type) where
  | message (E : F) (body : String)
  | index (E : F) (i : ℕ)

/-- Independent hash points, logarithms linear in the secrets. -/
noncomputable def formPoints (K S : Type) [CommRing K] :
    HashPoints (Form K S) (Element K S (HashPoint (Form K S))) where
  onMessage E body := atPoint (.message E body)
  onIndex E i := atPoint (.index E i)

open Classical in
/-- The linear model over linear forms. -/
noncomputable def formBls (K S : Type) [CommRing K]
    (coefs : List (Form K S) → List ℤ)
    (hlen : ∀ pks, (coefs pks).length = pks.length) :
    Bls (Form K S) (Element K S (HashPoint (Form K S))) (Form K S) :=
  linearBls (formPoints K S) coefs hlen

open Classical in
/-- The same over linear forms in the secrets. -/
theorem formBls_verifyMultisig_iff {K S : Type} [CommRing K]
    {coefs : List (Form K S) → List ℤ}
    {hlen : ∀ pks, (coefs pks).length = pks.length}
    {sg : Element K S (HashPoint (Form K S))} {E P : Form K S}
    {body : String} {mask : ℕ} :
    (formBls K S coefs hlen).verifyMultisig sg E P body mask = true
      ↔ sg = multisigValue (formPoints K S) E P body mask :=
  verifyMultisig_iff

/-! ## Logarithms as integers -/

/-- A computing instance: every hash point is a number. -/
def intPoints : HashPoints ℤ ℤ where
  onMessage _ body := AddMonoidHom.mulLeft (2 * body.length + 1)
  onIndex _ i := AddMonoidHom.mulLeft (1000 * 2 ^ i)

/-- The linear model over the integers, all coefficients one. -/
def intBls : Bls ℤ ℤ ℤ :=
  linearBls intPoints (fun pks => pks.map (fun _ => 1))
    (fun _ => List.length_map _)

end RelayerBls
