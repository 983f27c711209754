import CoinSpend.Script.Template
import CoinSpend.Script.Text
import CoinSpend.Signature.Digest
import CoinSpend.Validation.Sanity
import CoinSpend.Wire.Reader

/-!
# Faults of requests

What can be wrong with what is asked, as opposed to what is judged: each kind of
fault has a text that begins with its subject.
-/

namespace CoinSpend

inductive Fault where
  | invalid (fault : SanityFault)
  | wire (fault : Wire.DecodeFault)
  | word (fault : WordFault)
  | template (fault : TemplateFault)
  | unknownFlag (name : List Char)
  | inputIndex (fault : InputIndexFault)
  deriving DecidableEq

def Fault.message : Fault → String
  | invalid fault => "Transaction validation failed: " ++ fault.code
  | wire fault => "Serialization error: " ++ fault.message
  | word fault => "Script parse error: " ++ fault.message
  | template fault => "Script parse error: " ++ fault.message
  | unknownFlag name => "Unknown verification flag: " ++ String.ofList name
  | inputIndex fault => fault.message

end CoinSpend
