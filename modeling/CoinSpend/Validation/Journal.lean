import CoinSpend.Text.Hex
import CoinSpend.Validation.Inputs
import CoinSpend.Validation.Sanity
import CoinSpend.Validation.Verification

/-!
# The journal of validation

Each refusal leaves a line with a level.  A transaction is named by its hash.
-/

namespace CoinSpend

inductive JournalLevel where
  | debug
  | trace
  deriving DecidableEq, Repr

def JournalLevel.name : JournalLevel → String
  | debug => "debug"
  | trace => "trace"

structure JournalEntry where
  level : JournalLevel
  text : String
  deriving DecidableEq

namespace JournalEntry

def line (entry : JournalEntry) : String :=
  entry.level.name ++ " " ++ entry.text

def ofSanity (fault : SanityFault) : JournalEntry :=
  ⟨.debug, "transaction failed sanity check: " ++ fault.code⟩

def ofInputs (hash : Hash256) (fault : InputFault) : JournalEntry :=
  ⟨.debug, "transaction " ++ Text.hex hash.bytes ++ " failed input check: " ++ fault.code⟩

def ofIncident (hash : Hash256) : Incident → JournalEntry
  | .coinMissing index =>
      ⟨.trace, "input " ++ toString index ++
        " spends a coin missing from the view, skipping"⟩
  | .inputFailed index error =>
      ⟨.trace, "input " ++ toString index ++ " of " ++ Text.hex hash.bytes ++
        " failed: " ++ error.message⟩

end JournalEntry

namespace Transaction

/-- What the sanity check of a transaction writes. -/
def sanityJournal (transaction : Transaction) : List JournalEntry :=
  transaction.sanityFault?.toList.map .ofSanity

/-- What the input check of a transaction writes. -/
def inputJournal (transaction : Transaction) (view : CoinView) (height : Int) :
    List JournalEntry :=
  (transaction.inputFault? view height).toList.map (.ofInputs transaction.hash)

/-- What a verification of a transaction writes. -/
def verificationJournal (transaction : Transaction) (verification : Verification) :
    List JournalEntry :=
  verification.incidents.map (.ofIncident transaction.hash)

end Transaction

end CoinSpend
