/-!
# Why a script fails

Failures are ordinary outcomes.  Each has one cause, a short name and one fixed
text.
-/

namespace CoinSpend

inductive ScriptError where
  | unknown
  | evalFalse
  | returned
  | scriptSize
  | pushSize
  | operationCount
  | stackSize
  | signatureCount
  | publicKeyCount
  | verify
  | equalVerify
  | checkSigVerify
  | checkMultisigVerify
  | numEqualVerify
  | badOpcode
  | disabledOpcode
  | invalidStackOperation
  | invalidAltStackOperation
  | unbalancedConditional
  | negativeLockTime
  | unsatisfiedLockTime
  | signatureHashType
  | signatureDer
  | minimalData
  | signaturePushOnly
  | signatureHighS
  | signatureNullDummy
  | publicKeyType
  | cleanStack
  | minimalIf
  | nullFail
  | discourageNops
  | discourageWitnessVersions
  | witnessProgramWrongLength
  | witnessProgramWitnessEmpty
  | witnessProgramMismatch
  | witnessMalleated
  | witnessMalleatedNested
  | witnessUnexpected
  | witnessPublicKeyType
  deriving DecidableEq, Repr

def ScriptError.message : ScriptError → String
  | unknown => "unknown error"
  | evalFalse =>
      "script evaluated without error but finished with a false/empty top stack element"
  | returned => "OP_RETURN was encountered"
  | scriptSize => "script is too big"
  | pushSize => "push value size limit exceeded"
  | operationCount => "operation limit exceeded"
  | stackSize => "stack size limit exceeded"
  | signatureCount => "signature count negative or greater than pubkey count"
  | publicKeyCount => "pubkey count negative or limit exceeded"
  | verify => "script failed an OP_VERIFY operation"
  | equalVerify => "script failed an OP_EQUALVERIFY operation"
  | checkSigVerify => "script failed an OP_CHECKSIGVERIFY operation"
  | checkMultisigVerify => "script failed an OP_CHECKMULTISIGVERIFY operation"
  | numEqualVerify => "script failed an OP_NUMEQUALVERIFY operation"
  | badOpcode => "opcode missing or not understood"
  | disabledOpcode => "attempted to use a disabled opcode"
  | invalidStackOperation => "operation not valid with the current stack size"
  | invalidAltStackOperation => "operation not valid with the current altstack size"
  | unbalancedConditional => "invalid OP_IF construction"
  | negativeLockTime => "negative locktime"
  | unsatisfiedLockTime => "locktime requirement not satisfied"
  | signatureHashType => "signature hash type missing or not understood"
  | signatureDer => "non-canonical DER signature"
  | minimalData => "data push larger than necessary"
  | signaturePushOnly => "only push operators allowed in signatures"
  | signatureHighS => "non-canonical signature: S value is unnecessarily high"
  | signatureNullDummy => "dummy CHECKMULTISIG argument must be zero"
  | publicKeyType => "public key is neither compressed or uncompressed"
  | cleanStack => "stack size must be exactly one after execution"
  | minimalIf => "OP_IF/NOTIF argument must be minimal"
  | nullFail => "signature must be zero for failed CHECK(MULTI)SIG operation"
  | discourageNops => "NOPx reserved for soft-fork upgrades"
  | discourageWitnessVersions => "witness version reserved for soft-fork upgrades"
  | witnessProgramWrongLength => "witness program has incorrect length"
  | witnessProgramWitnessEmpty => "witness program was passed an empty witness"
  | witnessProgramMismatch => "witness program hash mismatch"
  | witnessMalleated => "witness requires empty scriptSig"
  | witnessMalleatedNested => "witness requires only-redeemscript scriptSig"
  | witnessUnexpected => "witness provided for non-witness script"
  | witnessPublicKeyType => "using non-compressed keys in segwit"

/-- The short name of a failure. -/
def ScriptError.name : ScriptError → String
  | unknown => "UnknownError"
  | evalFalse => "EvalFalse"
  | returned => "OpReturn"
  | scriptSize => "ScriptSize"
  | pushSize => "PushSize"
  | operationCount => "OpCount"
  | stackSize => "StackSize"
  | signatureCount => "SigCount"
  | publicKeyCount => "PubkeyCount"
  | verify => "Verify"
  | equalVerify => "EqualVerify"
  | checkSigVerify => "CheckSigVerify"
  | checkMultisigVerify => "CheckMultiSigVerify"
  | numEqualVerify => "NumEqualVerify"
  | badOpcode => "BadOpcode"
  | disabledOpcode => "DisabledOpcode"
  | invalidStackOperation => "InvalidStackOperation"
  | invalidAltStackOperation => "InvalidAltstackOperation"
  | unbalancedConditional => "UnbalancedConditional"
  | negativeLockTime => "NegativeLockTime"
  | unsatisfiedLockTime => "UnsatisfiedLockTime"
  | signatureHashType => "SigHashType"
  | signatureDer => "SigDer"
  | minimalData => "MinimalData"
  | signaturePushOnly => "SigPushOnly"
  | signatureHighS => "SigHighS"
  | signatureNullDummy => "SigNullDummy"
  | publicKeyType => "PubkeyType"
  | cleanStack => "CleanStack"
  | minimalIf => "MinimalIf"
  | nullFail => "NullFail"
  | discourageNops => "DiscourageUpgradableNops"
  | discourageWitnessVersions => "DiscourageUpgradableWitnessProgram"
  | witnessProgramWrongLength => "WitnessProgramWrongLength"
  | witnessProgramWitnessEmpty => "WitnessProgramWitnessEmpty"
  | witnessProgramMismatch => "WitnessProgramMismatch"
  | witnessMalleated => "WitnessMalleated"
  | witnessMalleatedNested => "WitnessMalleatedP2SH"
  | witnessUnexpected => "WitnessUnexpected"
  | witnessPublicKeyType => "WitnessPubkeyType"

end CoinSpend
