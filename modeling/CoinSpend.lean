import CoinSpend.Bytes
import CoinSpend.Bytes.Lemmas
import CoinSpend.Coin
import CoinSpend.Fault
import CoinSpend.Flags
import CoinSpend.Hash.Blocks
import CoinSpend.Hash.Digest
import CoinSpend.Hash.Ripemd160
import CoinSpend.Hash.Sha1
import CoinSpend.Hash.Sha256
import CoinSpend.Interpreter.Checker
import CoinSpend.Interpreter.Context
import CoinSpend.Interpreter.Evaluation
import CoinSpend.Interpreter.Multisig
import CoinSpend.Interpreter.Operation
import CoinSpend.Interpreter.Spend
import CoinSpend.Interpreter.Stack
import CoinSpend.Limits
import CoinSpend.Script.Basic
import CoinSpend.Script.Edit
import CoinSpend.Script.Error
import CoinSpend.Script.Instruction
import CoinSpend.Script.Number
import CoinSpend.Script.Opcode
import CoinSpend.Script.SignatureCount
import CoinSpend.Script.Template
import CoinSpend.Script.Text
import CoinSpend.Secp256k1.Ecdsa
import CoinSpend.Secp256k1.Field
import CoinSpend.Secp256k1.Point
import CoinSpend.Signature.Digest
import CoinSpend.Signature.Encoding
import CoinSpend.Signature.SpendingInput
import CoinSpend.Sum
import CoinSpend.Text.Blank
import CoinSpend.Text.Hex
import CoinSpend.Transaction.Basic
import CoinSpend.Transaction.Decoding
import CoinSpend.Transaction.Edit
import CoinSpend.Transaction.Encoding
import CoinSpend.Transaction.Identity
import CoinSpend.Transaction.Inquiry
import CoinSpend.Transaction.Memo
import CoinSpend.Transaction.Size
import CoinSpend.Validation.Inputs
import CoinSpend.Validation.Journal
import CoinSpend.Validation.Sanity
import CoinSpend.Validation.SignatureCost
import CoinSpend.Validation.Verification
import CoinSpend.Wire.CompactSize
import CoinSpend.Wire.Reader
import CoinSpend.Workspace
import CoinSpend.Proofs.Outcome
import CoinSpend.Proofs.SoftFork
import CoinSpend.Proofs.Decoding
import CoinSpend.Proofs.Canonical
import CoinSpend.Proofs.SigningCopy
import CoinSpend.Proofs.Commitment
import CoinSpend.Proofs.SpendBudget
import CoinSpend.Proofs.NestedWitness
import CoinSpend.Proofs.OtherInputs
import CoinSpend.Proofs.Settlement
import CoinSpend.Proofs.FirstReads
import CoinSpend.Proofs.Sizes
import CoinSpend.Proofs.ScriptText
import CoinSpend.Proofs.Evaluations
import CoinSpend.Proofs.InBounds
import CoinSpend.Proofs.RedeemScript
import CoinSpend.Proofs.OrderedMatching
import CoinSpend.Proofs.MultisigEffect
import CoinSpend.Proofs.KeyHash
import CoinSpend.Proofs.FixedUnlocking
import CoinSpend.Proofs.Branches
import CoinSpend.Proofs.SoundScripts
import CoinSpend.Proofs.DeadBranches
import CoinSpend.Proofs.StackFrame
import CoinSpend.Proofs.CutCursors
import CoinSpend.Proofs.ScriptCode
import CoinSpend.Proofs.FetchPrograms
import CoinSpend.Proofs.LongNumbers
import CoinSpend.Proofs.ExactArithmetic
import CoinSpend.Proofs.PushedElements
import CoinSpend.Proofs.MinimalPushes
import CoinSpend.Proofs.Builders
import CoinSpend.Proofs.StrictSignatures
import CoinSpend.Proofs.CheckedTotals
import CoinSpend.Proofs.SaneTransactions
import CoinSpend.Proofs.InputSums
import CoinSpend.Proofs.CoinHistory
import CoinSpend.Proofs.RecognizedTemplates
import CoinSpend.Proofs.LockTimes
import CoinSpend.Proofs.FlagText
import CoinSpend.Proofs.ScriptPartition
import CoinSpend.Proofs.ReaderPositions
