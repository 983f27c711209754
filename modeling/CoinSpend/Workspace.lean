import CoinSpend.Transaction.Memo

/-!
# A workspace of transactions and coins

Transactions lie in numbered slots beside one view of coins, of which a copy can
be set aside.  Commands are carried out one after another, and each has an answer.
A command about a slot that is empty changes nothing.
-/

namespace CoinSpend

structure Workspace where
  slots : List (Nat × MemoTransaction)
  view : CoinView
  saved : CoinView

inductive WorkspaceCommand where
  | store (slot : Nat) (transaction : Transaction)
  | copy (source target : Nat)
  | same (left right : Nat)
  | edit (slot : Nat) (edit : TransactionEdit)
  | refresh (slot : Nat)
  | hash (slot : Nat)
  | witnessHash (slot : Nat)
  | midstate (slot : Nat)
  | signatureDigest (slot index : Nat) (script : Script) (value : Int64)
      (hashType : HashType) (version : SignatureVersion)
  | verify (slot : Nat) (flags : Flags)
  | verifyInput (slot index : Nat) (coin : Coin) (flags : Flags)
  | coinOf (slot : Nat) (index : UInt32) (height : Int)
  | addTransaction (slot : Nat) (height : Int)
  | addCoin (coin : Coin)
  | addOutput (outPoint : OutPoint) (output : Output)
  | spend (outPoint : OutPoint)
  | saveView
  | restoreView

inductive WorkspaceAnswer where
  | done
  | emptySlot
  | truth (value : Bool)
  | digest (value : Hash256)
  | midstate (value : Midstate)
  | noInput (fault : InputIndexFault)
  | outcome (result : Except ScriptError Unit)
  | coin (found : Option Coin)

namespace Workspace

def empty : Workspace :=
  ⟨[], .empty, .empty⟩

def get? (workspace : Workspace) (slot : Nat) : Option MemoTransaction :=
  workspace.slots.lookup slot

def put (workspace : Workspace) (slot : Nat) (memo : MemoTransaction) : Workspace :=
  { workspace with
    slots := (slot, memo) :: workspace.slots.filter fun entry => entry.1 ≠ slot }

/-- Let the transaction of a slot answer, and put it back. -/
def answerWith (workspace : Workspace) (slot : Nat)
    (action : MemoTransaction → WorkspaceAnswer × MemoTransaction) :
    WorkspaceAnswer × Workspace :=
  match workspace.get? slot with
  | none => (.emptySlot, workspace)
  | some memo =>
      let (answer, next) := action memo
      (answer, workspace.put slot next)

/-- Carry out one command. -/
def run (workspace : Workspace) (command : WorkspaceCommand) :
    WorkspaceAnswer × Workspace :=
  match command with
  | .store slot transaction => (.done, workspace.put slot (.fresh transaction))
  | .copy source target =>
      match workspace.get? source with
      | none => (.emptySlot, workspace)
      | some memo => (.done, workspace.put target memo.copy)
  | .same left right =>
      match workspace.get? left, workspace.get? right with
      | some first, some second => (.truth (first.same second), workspace)
      | _, _ => (.emptySlot, workspace)
  | .edit slot edit => workspace.answerWith slot fun memo => (.done, memo.edit edit)
  | .refresh slot => workspace.answerWith slot fun memo => (.done, memo.refresh)
  | .hash slot => workspace.answerWith slot fun memo => memo.hash.map .digest id
  | .witnessHash slot => workspace.answerWith slot fun memo => memo.witnessHash.map .digest id
  | .midstate slot => workspace.answerWith slot fun memo => memo.midstate.map .midstate id
  | .signatureDigest slot index script value hashType version =>
      workspace.answerWith slot fun memo =>
        let (digest, next) := memo.signatureDigest index script value hashType version
        match digest with
        | .ok hash => (.digest hash, next)
        | .error fault => (.noInput fault, next)
  | .verify slot flags =>
      workspace.answerWith slot fun memo =>
        (memo.verify workspace.view flags).map (fun report => .truth report.verified) id
  | .verifyInput slot index coin flags =>
      workspace.answerWith slot fun memo =>
        (memo.verifyInput index coin flags).map (fun outcome => .outcome outcome.result) id
  | .coinOf slot index height =>
      workspace.answerWith slot fun memo => (memo.coin? index height).map .coin id
  | .addTransaction slot height =>
      match workspace.get? slot with
      | none => (.emptySlot, workspace)
      | some memo =>
          let (view, next) := memo.addTo workspace.view height
          (.done, { workspace.put slot next with view := view })
  | .addCoin coin => (.done, { workspace with view := workspace.view.insert coin })
  | .addOutput outPoint output =>
      (.done, { workspace with view := workspace.view.insertOutput outPoint output })
  | .spend outPoint =>
      let (coin, view) := workspace.view.spend outPoint
      (.coin coin, { workspace with view := view })
  | .saveView => (.done, { workspace with saved := workspace.view })
  | .restoreView => (.done, { workspace with view := workspace.saved })

end Workspace

end CoinSpend
