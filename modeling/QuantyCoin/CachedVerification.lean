import QuantyCoin.RelatedRuns
import QuantyCoin.TransactionChecker

/-!
# Verification with the cache of signature hashes

The checker of an input keeps its cache of signature hashes over all the scripts that
`VerifyScript` runs for the input.  However these scripts mix hash types, versions and
separators, the outcome is that of a checker without a cache.
-/

namespace QuantyCoin

open ByteDecoder OrderedDict StateSimulation StateTriples

namespace TransactionSignatureChecker

variable (crypto : TransactionCrypto) (checker : TransactionSignatureChecker)

/-- What the signature hashes of an input depend on. -/
structure Request where
  scriptCode : Bytes
  nHashType : UInt8
  sigversion : SigVersion

/-- The slot of the cache. -/
def Request.slot (request : Request) : Fin 6 :=
  SigHashCache.slot (Int32.ofNat request.nHashType.toNat)

/-- The key of the entry. -/
def Request.key (request : Request) : SigVersion × Bytes :=
  (request.sigversion, request.scriptCode)

/-- What `SignatureHash` writes before the hash type. -/
def midstate (request : Request) : Option Bytes :=
  writeMidstate crypto.sha256 request.scriptCode checker.txTo checker.nIn
    (Int32.ofNat request.nHashType.toNat) checker.amount request.sigversion
    (checker.txdata.map TaprootTransactionData.toPrecomputedTransactionData)

theorem midstate_determined :
    SlotCache.Determined Request.slot Request.key (checker.midstate crypto) := by
  intro first second slots keys
  obtain ⟨versions, scripts⟩ := Prod.mk.inj keys
  rw [midstate, midstate, versions, scripts]
  exact writeMidstate_slot slots second.scriptCode second.sigversion _

/-- A sound cache, beside none. -/
def CachesSoundly (cache cache' : Option SigHashCache) : Prop :=
  cache' = none ∧ ∃ entries, cache = some entries ∧
    SlotCache.Sound Request.slot Request.key (checker.midstate crypto) entries

/-- One signature hash with the cache and one without. -/
theorem agree_signatureHash (scriptCode : Bytes) (nHashType : UInt8) (sigversion : SigVersion) :
    Agree (checker.CachesSoundly crypto)
      (checker.signatureHash crypto scriptCode nHashType sigversion)
      (checker.signatureHash crypto scriptCode nHashType sigversion) := by
  rintro _ _ ⟨rfl, entries, rfl, sound⟩
  have kept : checker.CachesSoundly crypto (some entries) none := ⟨rfl, entries, rfl, sound⟩
  simp only [signatureHash, updating, QuantyCoin.signatureHash]
  rw [if_neg (not_not.mpr checker.nIn_lt), if_neg (not_not.mpr checker.nIn_lt)]
  split_ifs with sentinel
  · exact .ok ⟨rfl, kept⟩
  · let request : Request := ⟨scriptCode, nHashType, sigversion⟩
    have loads : (some entries).bind (fun entries : SigHashCache =>
        entries.load (Int32.ofNat nHashType.toNat) sigversion scriptCode) =
          SlotCache.load entries request.slot request.key := rfl
    have computed : writeMidstate crypto.sha256 scriptCode checker.txTo checker.nIn
        (Int32.ofNat nHashType.toNat) checker.amount sigversion
        (checker.txdata.map TaprootTransactionData.toPrecomputedTransactionData) =
          checker.midstate crypto request := rfl
    rw [loads, computed, Option.bind_none]
    cases loaded : SlotCache.load entries request.slot request.key with
    | some ss =>
        rw [sound request ss loaded]
        exact .ok ⟨rfl, kept⟩
    | none =>
        cases written : checker.midstate crypto request with
        | none => exact .error kept
        | some ss =>
            have stored := sound.store (checker.midstate_determined crypto) written
            exact .ok ⟨rfl, rfl, _, rfl, stored⟩

theorem agree_dilithiumSighash (scriptCode : Bytes) (nHashType : UInt8) (sigversion : SigVersion)
    (execdata : ScriptExecutionData) :
    Agree (checker.CachesSoundly crypto)
      (checker.dilithiumSighash crypto scriptCode nHashType sigversion execdata)
      (checker.dilithiumSighash crypto scriptCode nHashType sigversion execdata) := by
  rw [dilithiumSighash]
  refine .ite (.ite (.pure _) ?_) ?_
  · cases checker.txdata with
    | none => exact .ofExcept _
    | some cache => exact .ofExcept _
  · exact .bind (checker.agree_signatureHash crypto _ _ _) fun _ => .pure _

/-- The checker with a sound cache and the checker with none. -/
theorem relatedCheckers :
    RelatedCheckers (checker.CachesSoundly crypto) (checker.toSignatureChecker crypto)
      (checker.toSignatureChecker crypto) where
  taproot := rfl
  ecdsa vchSig vchPubKey scriptCode sigversion := by
    change Agree _ (checker.checkECDSASignature crypto vchSig vchPubKey scriptCode sigversion)
      (checker.checkECDSASignature crypto vchSig vchPubKey scriptCode sigversion)
    rw [checkECDSASignature]
    refine .ite (.pure _) ?_
    cases vchSig.getLast? with
    | none => exact .pure _
    | some nHashType =>
        exact .ite (.ofExcept _)
          (.bind (checker.agree_signatureHash crypto _ _ _) fun _ => .pure _)
  schnorr _ _ _ _ := .ofExcept _
  dilithium vchSig vchPubKey scriptCode sigversion execdata := by
    change Agree _
      (checker.checkDilithiumSignature crypto vchSig vchPubKey scriptCode sigversion execdata)
      (checker.checkDilithiumSignature crypto vchSig vchPubKey scriptCode sigversion execdata)
    rw [checkDilithiumSignature]
    refine .ite (.pure _) ?_
    cases vchSig.getLast? with
    | none => exact .pure _
    | some nHashType =>
        refine .ite (.ofExcept _) (.bind (checker.agree_dilithiumSighash crypto _ _ _ _)
          fun (sighash, execdata) => ?_)
        cases sighash with
        | none => exact .pure _
        | some sighash => exact .pure _
  lockTime := rfl
  sequence := rfl

end TransactionSignatureChecker

/-- `VerifyScript` accepts and rejects, with the same error, as it does without the cache. -/
theorem verifyScript_sighashCache (crypto : TransactionCrypto)
    (checker : TransactionSignatureChecker) (flags : UInt32) (scriptSig scriptPubKey : Bytes)
    (witness : List Bytes) :
    returned (verifyScript crypto.toScriptCrypto (checker.toSignatureChecker crypto) flags
        scriptSig scriptPubKey witness (some SlotCache.empty)) =
      returned (verifyScript crypto.toScriptCrypto (checker.toSignatureChecker crypto) flags
        scriptSig scriptPubKey witness none) :=
  (agree_verifyScript (checker.relatedCheckers crypto) scriptSig scriptPubKey witness).outcome
    ⟨rfl, SlotCache.empty, rfl, SlotCache.sound_empty⟩

end QuantyCoin
