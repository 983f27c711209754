import CoinSpend.Transaction.Memo
import CoinSpend.Validation.Journal
import CoinSpend.Validation.SignatureCost

/-!
# Questions about a transaction

All that can be asked about a transaction that is kept with its digests, as data, with a
reply to each.  A reply may use a digest that is remembered, and then what it used is
remembered for the next one.
-/

namespace CoinSpend

/-- A question about a transaction.  Two of them can leave lines in a journal. -/
inductive Inquiry where
  | hash
  | witnessHash
  | midstate
  | signatureDigest (index : Nat) (script : Script) (value : Int64) (hashType : HashType)
      (version : SignatureVersion)
  | sanity
  | inputs (view : CoinView) (height : Int) (journaled : Bool)
  | verify (view : CoinView) (flags : Flags) (journaled : Bool)
  | verifyInput (index : Nat) (coin : Coin) (flags : Flags)
  | signatureCost (view : CoinView) (flags : Flags)
  | coin (index : UInt32) (height : Int)
  | addTo (view : CoinView) (height : Int)

inductive Reply where
  | digest (value : Hash256)
  | midstate (value : Midstate)
  | signed (digest : Except InputIndexFault Hash256)
  | sanity (fault : Option SanityFault)
  | inputs (fault : Option InputFault) (journal : List JournalEntry)
  | verification (verdict : Verification) (journal : List JournalEntry)
  | outcome (outcome : Outcome Unit)
  | cost (checks : Nat)
  | coin (found : Option Coin)
  | view (next : CoinView)

/-- Whether the line of an incident names the transaction. -/
def Incident.namesTransaction : Incident → Bool
  | .coinMissing _ => false
  | .inputFailed _ _ => true

namespace MemoTransaction

/-- The first rule about inputs that is broken.  Its line in the journal names the
transaction. -/
def inputFault? (memo : MemoTransaction) (view : CoinView) (height : Int) (journaled : Bool) :
    (Option InputFault × List JournalEntry) × MemoTransaction :=
  match memo.transaction.inputFault? view height, journaled with
  | some fault, true =>
      let (hash, next) := memo.hash
      ((some fault, [.ofInputs hash fault]), next)
  | found, _ => ((found, []), memo)

/-- Verify every input whose coin is in the view, with a journal.  Only a line that names the
transaction needs its hash. -/
def verifyJournaled (memo : MemoTransaction) (view : CoinView) (flags : Flags)
    (journaled : Bool) : (Verification × List JournalEntry) × MemoTransaction :=
  let (verification, next) := memo.verify view flags
  if journaled then
    let (hash, named) := next.hash
    ((verification, verification.incidents.map (.ofIncident hash)),
      if verification.incidents.any Incident.namesTransaction then named else next)
  else
    ((verification, []), next)

def reply (memo : MemoTransaction) (inquiry : Inquiry) : Reply × MemoTransaction :=
  match inquiry with
  | .hash => memo.hash.map .digest id
  | .witnessHash => memo.witnessHash.map .digest id
  | .midstate => memo.midstate.map .midstate id
  | .signatureDigest index script value hashType version =>
      (memo.signatureDigest index script value hashType version).map .signed id
  | .sanity => (.sanity memo.transaction.sanityFault?, memo)
  | .inputs view height journaled =>
      (memo.inputFault? view height journaled).map (fun found => .inputs found.1 found.2) id
  | .verify view flags journaled =>
      (memo.verifyJournaled view flags journaled).map
        (fun found => .verification found.1 found.2) id
  | .verifyInput index coin flags => (memo.verifyInput index coin flags).map .outcome id
  | .signatureCost view flags => (.cost (memo.transaction.signatureCost view flags), memo)
  | .coin index height => (memo.coin? index height).map .coin id
  | .addTo view height => (memo.addTo view height).map .view id

/-- The replies to questions in order, each with what was remembered before it. -/
def replies (memo : MemoTransaction) : List Inquiry → List Reply × MemoTransaction
  | [] => ([], memo)
  | inquiry :: rest =>
      let (reply, next) := memo.reply inquiry
      let (later, last) := next.replies rest
      (reply :: later, last)

end MemoTransaction

end CoinSpend
