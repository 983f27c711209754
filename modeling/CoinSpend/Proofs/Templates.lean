import CoinSpend.Interpreter.Spend
import CoinSpend.Proofs.Execution

/-!
# What the templates do

A witness program is a number and a push, the hash of a script is compared with that of the
top of the stack, the hash of a key asks for a signature, and a single push is its own redeem
script.  Each of these scripts has one outcome on every stack that leaves room for it.
-/

namespace CoinSpend

/-- The state with a stack and nothing else after some counted operations. -/
def State.after (operations : Nat) (stack : Stack) : State :=
  { State.ofStack stack with operations := operations }

namespace Script

/-! ## Single pushes -/

theorem empty_appendData (data : Bytes) : empty.appendData data = ofInstructions [pushOf data] := by
  simp [appendData, append, empty, ofInstructions]

theorem isPushOnly_empty : empty.isPushOnly = true := by
  simp [isPushOnly, isWhole, brokenEnd, instructions, empty]

theorem evaluate_empty (flags : Flags) (checker : Checker) (version : SignatureVersion)
    (stack : Stack) : Context.evaluate ⟨empty, flags, checker, version⟩ stack = pure stack := by
  have noInstructions : empty.instructions = [] := congrArg Prod.fst Instruction.decode_nil
  have noEnd : empty.brokenEnd = [] := congrArg Prod.snd Instruction.decode_nil
  have reached : Context.steps ⟨empty, flags, checker, version⟩ 0 empty.instructions
      (.ofStack stack) = pure (.ofStack stack) := by
    rw [noInstructions]
    rfl
  exact Context.evaluate_of_steps (Nat.zero_le _) noEnd reached rfl

section Push

variable {data : Bytes} (fits : data.length ≤ PushForm.fourBytes.maxLength)

include fits

theorem wellFormed_singlePush : ∀ instruction ∈ [pushOf data], instruction.WellFormed := by
  intro instruction member
  rw [List.mem_singleton.mp member]
  exact wellFormed_pushOf fits

theorem isPushOnly_appendData : (empty.appendData data).isPushOnly = true := by
  have uncounted : (pushOf data).opcode.isCounted = false :=
    Instruction.isCounted_push (wellFormed_pushOf fits)
  rw [empty_appendData]
  exact isPushOnly_ofInstructions (wellFormed_singlePush fits)
    (List.forall_mem_singleton.mpr uncounted)

theorem redeemScript?_appendData : (empty.appendData data).redeemScript? = some ⟨data⟩ := by
  rw [redeemScript?, if_pos (isPushOnly_appendData fits), empty_appendData,
    instructions_ofInstructions (wellFormed_singlePush fits)]
  rfl

end Push

theorem evaluate_appendData {data : Bytes} (long : 2 ≤ data.length)
    (short : data.length ≤ Limits.maxElementSize) (flags : Flags) (checker : Checker)
    (version : SignatureVersion) {stack : Stack} (room : stack.length < Limits.maxStackSize) :
    Context.evaluate ⟨empty.appendData data, flags, checker, version⟩ stack =
      pure (data :: stack) := by
  have fits : data.length ≤ PushForm.fourBytes.maxLength := Nat.le_trans short (by decide)
  rw [empty_appendData]
  exact Context.evaluate_single (wellFormed_pushOf fits) rfl (isAllowed_pushOf long short _) checker
    version room

theorem encode_pushOf_of_le {data : Bytes} (short : data.length ≤ 75) :
    (pushOf data).encode = UInt8.ofNat data.length :: data := by
  have direct : PushForm.shortest data.length = .direct := if_pos short
  rw [pushOf, direct, Instruction.encode]
  rfl

/-! ## Witness programs -/

theorem encode_numberOf_of_smallNumber? {opcode : Opcode} {number : Nat}
    (found : opcode.smallNumber? = some number) :
    number ≤ 16 ∧ (numberOf number).encode = [opcode.byte] := by
  unfold Opcode.smallNumber? at found
  split_ifs at found with isZero isSmall
  · cases found
    rw [isZero]
    exact ⟨Nat.zero_le _, rfl⟩
  · cases found
    obtain ⟨least, most⟩ := Opcode.isSmallNumber_iff.mp isSmall
    refine ⟨by omega, ?_⟩
    have table : ∀ number : Fin 16, (numberOf ((number + 1 : Nat) : Int)).encode =
        [UInt8.ofNat (0x51 + number)] := by
      decide +kernel
    have found := table ⟨opcode.byte.toNat - 0x51, by omega⟩
    dsimp only at found
    rw [show opcode.byte.toNat - 0x51 + 1 = opcode.byte.toNat - 0x50 by omega,
      show 0x51 + (opcode.byte.toNat - 0x51) = opcode.byte.toNat by omega,
      UInt8.ofNat_toNat] at found
    exact found

theorem smallNumber?_of_ofSmallNumber? {opcode : Opcode} {number : Nat}
    (found : Opcode.ofSmallNumber? number = some opcode) : opcode.smallNumber? = some number := by
  have table : ∀ number : Fin 17, (Opcode.ofSmallNumber? (number : Nat)).bind Opcode.smallNumber? =
      some (number : Nat) := by
    decide +kernel
  have small : number ≤ 16 := by
    unfold Opcode.ofSmallNumber? at found
    split_ifs at found <;> omega
  have read := table ⟨number, Nat.lt_succ_of_le small⟩
  rwa [found] at read

/-- A witness program is made of two instructions. -/
theorem eq_ofInstructions_of_witnessProgram? {script : Script} {program : WitnessProgram}
    (found : script.witnessProgram? = some program) :
    program.version ≤ 16 ∧ 2 ≤ program.data.length ∧ program.data.length ≤ 40 ∧
      script = ofInstructions [numberOf program.version, pushOf program.data] := by
  obtain ⟨bytes⟩ := script
  unfold witnessProgram? at found
  split at found
  · rename_i version size data isBytes
    split_ifs at found with sized
    obtain ⟨long, short, isSize⟩ := sized
    obtain ⟨number, isNumber, rfl⟩ := Option.map_eq_some_iff.mp found
    obtain ⟨small, encoded⟩ := encode_numberOf_of_smallNumber? isNumber
    refine ⟨small, long, short, ?_⟩
    obtain rfl : bytes = version :: size :: data := isBytes
    have pushed : (pushOf data).encode = size :: data := by
      rw [encode_pushOf_of_le (by omega), ← isSize, UInt8.ofNat_toNat]
    rw [ofInstructions, List.flatMap_cons, List.flatMap_singleton, encoded, pushed]
    rfl
  · cases found

/-- A script built for a witness program is recognized as one. -/
theorem witnessProgram?_of_payToWitness {program : WitnessProgram} {script : Script}
    (built : payToWitness program = .ok script) : script.witnessProgram? = some program := by
  unfold payToWitness at built
  split at built
  · cases built
  · rename_i version isVersion
    split_ifs at built with outside
    cases built
    have long : 2 ≤ program.data.length := Nat.not_lt.mp fun below => outside (Or.inl below)
    have short : program.data.length ≤ 40 := Nat.not_lt.mp fun above => outside (Or.inr above)
    have size : (UInt8.ofNat program.data.length).toNat = program.data.length :=
      UInt8.toNat_ofNat_of_lt' (Nat.lt_of_le_of_lt short (by decide))
    rw [witnessProgram?, encode_pushOf_of_le (by omega)]
    dsimp only
    rw [if_pos ⟨long, short, size⟩, smallNumber?_of_ofSmallNumber? isVersion]
    rfl

theorem exists_payToWitness {data : Bytes} (long : 2 ≤ data.length) (short : data.length ≤ 40) :
    ∃ script, payToWitness ⟨0, data⟩ = .ok script := by
  have within : ¬ (data.length < 2 ∨ 40 < data.length) := by omega
  exact ⟨_, if_neg within⟩

theorem length_of_witnessProgram? {script : Script} {program : WitnessProgram}
    (found : script.witnessProgram? = some program) :
    2 ≤ script.bytes.length ∧ script.bytes.length ≤ 42 := by
  unfold witnessProgram? at found
  split at found
  · rename_i version size data isBytes
    split_ifs at found with sized
    rw [isBytes, List.length_cons, List.length_cons]
    omega
  · cases found

/-- A witness program leaves its version below its data. -/
theorem evaluate_of_witnessProgram? {script : Script} {program : WitnessProgram}
    (found : script.witnessProgram? = some program) (flags : Flags) (checker : Checker)
    (version : SignatureVersion) {stack : Stack}
    (room : stack.length + 2 ≤ Limits.maxStackSize) :
    Context.evaluate ⟨script, flags, checker, version⟩ stack =
      pure (program.data :: ScriptNumber.encode program.version :: stack) := by
  obtain ⟨small, long, short, rfl⟩ := eq_ofInstructions_of_witnessProgram? found
  obtain ⟨-, most⟩ := length_of_witnessProgram? found
  obtain ⟨numberWellFormed, numberAllowed, numberPushed⟩ :=
    pushed?_numberOf small (flags.has .minimalData)
  have fits : program.data.length ≤ Limits.maxElementSize := Nat.le_trans short (by decide)
  have pushed : [numberOf program.version, pushOf program.data].map Instruction.pushed? =
      [ScriptNumber.encode program.version, program.data].map some := by
    rw [List.map_cons, numberPushed]
    rfl
  refine Context.evaluate_ofInstructions_of_pushed? ?_ pushed ?_
    (Nat.le_trans most (by decide)) room
  · simp only [List.forall_mem_cons, List.not_mem_nil, false_implies, implies_true, and_true]
    exact ⟨numberWellFormed, wellFormed_pushOf (Nat.le_trans short (by decide))⟩
  · simp only [List.forall_mem_cons, List.not_mem_nil, false_implies, implies_true, and_true]
    exact ⟨numberAllowed, isAllowed_pushOf long fits _⟩

/-! ## Hashes of scripts -/

theorem bytes_payToScriptHash (hash : Hash160) :
    (payToScriptHash hash).bytes = 0xa9 :: 20 :: (hash.bytes ++ [0x87]) := by
  have pushed : (pushOf hash.bytes).encode = 20 :: hash.bytes := by
    rw [encode_pushOf_of_le (by rw [hash.length_bytes]; decide), hash.length_bytes]
    rfl
  rw [payToScriptHash, ofInstructions]
  simp only [List.flatMap_cons, List.flatMap_nil, pushed]
  rfl

theorem length_payToScriptHash (hash : Hash160) : (payToScriptHash hash).length = 23 := by
  simp [Script.length, bytes_payToScriptHash, hash.length_bytes]

theorem isPayToScriptHash_payToScriptHash (hash : Hash160) :
    (payToScriptHash hash).isPayToScriptHash = true := by
  have ended : (hash.bytes ++ [0x87]).drop 20 = [0x87] := List.drop_left' hash.length_bytes
  rw [isPayToScriptHash, length_payToScriptHash, bytes_payToScriptHash]
  simp [ended, Opcode.hash160, Opcode.equal]

def payToScriptHashInstructions (hash : Hash160) : List Instruction :=
  [.op .hash160, pushOf hash.bytes, .op .equal]

theorem wellFormed_payToScriptHashInstructions (hash : Hash160) :
    ∀ instruction ∈ payToScriptHashInstructions hash, instruction.WellFormed := by
  have fits : hash.bytes.length ≤ PushForm.fourBytes.maxLength := by
    rw [hash.length_bytes]
    decide
  simp only [payToScriptHashInstructions, List.forall_mem_cons, List.not_mem_nil, false_implies,
    implies_true, and_true]
  exact ⟨rfl, wellFormed_pushOf fits, rfl⟩

section Lock

variable {hash : Hash160} {flags : Flags} {checker : Checker} {version : SignatureVersion}
  {top : Bytes} {below : Stack}

/-- The three instructions hash the top, push the hash, and compare.  The stack is highest
after the push. -/
theorem steps_payToScriptHash :
    Context.steps ⟨payToScriptHash hash, flags, checker, version⟩ 0
        (payToScriptHashInstructions hash) (.ofStack (top :: below)) = (do
      Outcome.require (below.length + 2 ≤ Limits.maxStackSize) .stackSize
      return .after 2
        (ScriptNumber.ofBool ((CoinSpend.hash160 top).bytes = hash.bytes) :: below)) := by
  have sized := hash.length_bytes
  have noneYet : 0 < Limits.maxOperations := by decide
  have oneYet : 1 < Limits.maxOperations := by decide
  have hashes : Context.step ⟨payToScriptHash hash, flags, checker, version⟩ 0 (.op .hash160)
      (.ofStack (top :: below)) = (do
        Outcome.require (below.length + 1 ≤ Limits.maxStackSize) .stackSize
        return .after 1 ((CoinSpend.hash160 top).bytes :: below)) :=
    Context.step_op rfl rfl rfl noneYet
  have pushes : Context.step ⟨payToScriptHash hash, flags, checker, version⟩ 1
      (pushOf hash.bytes) (.after 1 ((CoinSpend.hash160 top).bytes :: below)) = (do
        Outcome.require (below.length + 2 ≤ Limits.maxStackSize) .stackSize
        return .after 1 (hash.bytes :: (CoinSpend.hash160 top).bytes :: below)) :=
    Context.step_pushed? (wellFormed_pushOf (by rw [sized]; decide)) rfl
      (isAllowed_pushOf (by rw [sized]; decide) (by rw [sized]; decide) _) rfl
  have compares : Context.step ⟨payToScriptHash hash, flags, checker, version⟩ 2 (.op .equal)
      (.after 1 (hash.bytes :: (CoinSpend.hash160 top).bytes :: below)) = (do
        Outcome.require (below.length + 1 ≤ Limits.maxStackSize) .stackSize
        return .after 2
          (ScriptNumber.ofBool ((CoinSpend.hash160 top).bytes = hash.bytes) :: below)) :=
    Context.step_op rfl rfl rfl oneYet
  rw [payToScriptHashInstructions, Context.steps, hashes]
  by_cases room : below.length + 2 ≤ Limits.maxStackSize
  · have alsoRoom : below.length + 1 ≤ Limits.maxStackSize := Nat.le_of_succ_le room
    simp only [Outcome.require_bind_of_met (decide_eq_true alsoRoom),
      Outcome.require_bind_of_met (decide_eq_true room), Outcome.pure_bind, Context.steps,
      pushes, compares]
  · rw [Outcome.require_bind_of_unmet (decide_eq_false room)]
    by_cases oneMore : below.length + 1 ≤ Limits.maxStackSize
    · rw [Outcome.require_bind_of_met (decide_eq_true oneMore), Outcome.pure_bind, Context.steps,
        pushes, Outcome.require_bind_of_unmet (decide_eq_false room)]
      rfl
    · rw [Outcome.require_bind_of_unmet (decide_eq_false oneMore)]
      rfl

theorem evaluate_payToScriptHash_eq_steps {stack : Stack} :
    Context.evaluate ⟨payToScriptHash hash, flags, checker, version⟩ stack = (do
      let state ← Context.steps ⟨payToScriptHash hash, flags, checker, version⟩ 0
        (payToScriptHashInstructions hash) (.ofStack stack)
      Outcome.require state.branches.isEmpty .unbalancedConditional
      return state.stack) := by
  have wellFormed := wellFormed_payToScriptHashInstructions hash
  have short : (payToScriptHash hash).length ≤ Limits.maxScriptSize := by
    rw [length_payToScriptHash]
    decide
  have known : (payToScriptHash hash).instructions = payToScriptHashInstructions hash :=
    instructions_ofInstructions wellFormed
  rw [Context.evaluate_of_whole short (brokenEnd_ofInstructions wellFormed)]
  dsimp only
  rw [known]

/-- The hash of a script replaces the top of the stack by whether the top has it, if there is
room for the hash. -/
theorem evaluate_payToScriptHash_cons :
    Context.evaluate ⟨payToScriptHash hash, flags, checker, version⟩ (top :: below) = (do
      Outcome.require (below.length + 2 ≤ Limits.maxStackSize) .stackSize
      return ScriptNumber.ofBool ((CoinSpend.hash160 top).bytes = hash.bytes) :: below) := by
  rw [evaluate_payToScriptHash_eq_steps, steps_payToScriptHash, Outcome.bind_assoc]
  rfl

theorem evaluate_payToScriptHash_nil :
    Context.evaluate ⟨payToScriptHash hash, flags, checker, version⟩ [] =
      Outcome.fail .invalidStackOperation := by
  have noneYet : 0 < Limits.maxOperations := by decide
  have hashes : Context.step ⟨payToScriptHash hash, flags, checker, version⟩ 0 (.op .hash160)
      (.ofStack []) = Outcome.fail .invalidStackOperation :=
    Context.step_op rfl rfl rfl noneYet
  rw [evaluate_payToScriptHash_eq_steps, payToScriptHashInstructions, Context.steps, hashes]
  rfl

theorem evaluate_payToScriptHash (room : below.length + 2 ≤ Limits.maxStackSize) :
    Context.evaluate ⟨payToScriptHash hash, flags, checker, version⟩ (top :: below) =
      pure (ScriptNumber.ofBool ((CoinSpend.hash160 top).bytes = hash.bytes) :: below) := by
  rw [evaluate_payToScriptHash_cons, Outcome.require_bind_of_met (decide_eq_true room)]

end Lock

end Script

/-! ## Hashes of keys -/

namespace Context

section Step

variable {context : Context} {index : Nat} {state : State} {top second : Bytes} {below : Stack}
  (executing : state.executing = true) (few : state.operations < Limits.maxOperations)
  (stacked : state.stack = top :: second :: below)

include executing few stacked

theorem step_equalVerify (room : below.length + state.alt.length ≤ Limits.maxStackSize) :
    context.step index (.op .equalVerify) state = (do
      Outcome.require (second = top) .equalVerify
      return { state with stack := below, operations := state.operations + 1 }) := by
  have compared : context.operate index (.ofOpcode .equalVerify)
      { state with operations := state.operations + 1 } = (do
        Outcome.require (second = top) .equalVerify
        return { state with stack := below, operations := state.operations + 1 }) := by
    change onStack { state with operations := state.operations + 1 } (Stack.applyEqual true) = _
    simp only [onStack, stacked, Stack.applyEqual, if_pos]
    by_cases same : second = top
    · rw [if_pos same, Outcome.require_bind_of_met (decide_eq_true same)]
      rfl
    · rw [if_neg same, decide_eq_false same]
      rfl
  rw [step_op rfl rfl executing few, compared, Outcome.bind_assoc]
  simp only [Outcome.pure_bind, Outcome.require_bind_of_met (decide_eq_true room)]

theorem step_checkSig (room : below.length + 1 + state.alt.length ≤ Limits.maxStackSize) :
    context.step index (.op .checkSig) state = (do
      let accepted ← context.checkPair (context.signedScript state [second]) second top
      Outcome.require (accepted || !context.flags.has .nullFail || second.isEmpty) .nullFail
      return { state with
        stack := ScriptNumber.ofBool accepted :: below
        operations := state.operations + 1 }) := by
  have checked : context.operate index (.ofOpcode .checkSig)
      { state with operations := state.operations + 1 } = (do
        let accepted ← context.checkPair (context.signedScript state [second]) second top
        Outcome.require (accepted || !context.flags.has .nullFail || second.isEmpty) .nullFail
        return { state with
          stack := ScriptNumber.ofBool accepted :: below
          operations := state.operations + 1 }) := by
    change checkSignature context false { state with operations := state.operations + 1 } = _
    simp only [checkSignature, stacked]
    rfl
  rw [step_op rfl rfl executing few, checked]
  simp only [Outcome.bind_assoc, Outcome.pure_bind, List.length_cons,
    Outcome.require_bind_of_met (decide_eq_true room)]

end Step

/-- What the hash of a key makes of a signature and a key: the key must have the hash, and then
the signature is checked with it. -/
def unlockKeyHash (context : Context) (hash signature key : Bytes) : Outcome Bool := do
  Outcome.require ((CoinSpend.hash160 key).bytes = hash) .equalVerify
  let accepted ← context.checkPair (context.signedScript (.ofStack []) [signature]) signature key
  Outcome.require (accepted || !context.flags.has .nullFail || signature.isEmpty) .nullFail
  return accepted

end Context

namespace Script

def payToKeyHashInstructions (hash : Bytes) : List Instruction :=
  [.op .dup, .op .hash160, pushOf hash, .op .equalVerify, .op .checkSig]

section KeyLock

variable {hash : Bytes} (sized : hash.length = 20)

include sized

theorem wellFormed_payToKeyHashInstructions :
    ∀ instruction ∈ payToKeyHashInstructions hash, instruction.WellFormed := by
  have fits : hash.length ≤ PushForm.fourBytes.maxLength := by
    rw [sized]
    decide
  simp only [payToKeyHashInstructions, List.forall_mem_cons, List.not_mem_nil, false_implies,
    implies_true, and_true]
  exact ⟨rfl, rfl, wellFormed_pushOf fits, rfl, rfl⟩

theorem instructions_payToKeyHash :
    (payToKeyHash hash).instructions = payToKeyHashInstructions hash :=
  instructions_ofInstructions (wellFormed_payToKeyHashInstructions sized)

theorem length_payToKeyHash : (payToKeyHash hash).length = 25 := by
  have pushed : (pushOf hash).encode.length = 21 := by
    rw [encode_pushOf_of_le (by rw [sized]; decide), List.length_cons, sized]
  have single : ∀ opcode, (Instruction.op opcode).encode.length = 1 := fun _ => rfl
  rw [payToKeyHash, ofInstructions, Script.length]
  simp [pushed, single]

variable {context : Context} {signature key : Bytes} {below : Stack}

/-- The five instructions compare the hash of the key and then check the signature.  The stack is
highest after the push. -/
theorem steps_payToKeyHash (room : below.length + 4 ≤ Limits.maxStackSize) :
    context.steps 0 (payToKeyHashInstructions hash) (.ofStack (key :: signature :: below)) = (do
      let accepted ← context.unlockKeyHash hash signature key
      return .after 4 (ScriptNumber.ofBool accepted :: below)) := by
  have noneYet : 0 < Limits.maxOperations := by decide
  have oneYet : 1 < Limits.maxOperations := by decide
  have twoYet : 2 < Limits.maxOperations := by decide
  have threeYet : 3 < Limits.maxOperations := by decide
  have twoFit : below.length + 2 ≤ Limits.maxStackSize := Nat.le_trans (by omega) room
  have duplicates : context.step 0 (.op .dup) (.ofStack (key :: signature :: below)) =
      pure (.after 1 (key :: key :: signature :: below)) :=
    Context.step_of_operate rfl rfl rfl noneYet rfl (Nat.le_of_succ_le room)
  have hashes : context.step 1 (.op .hash160) (.after 1 (key :: key :: signature :: below)) =
      pure (.after 2 ((CoinSpend.hash160 key).bytes :: key :: signature :: below)) :=
    Context.step_of_operate rfl rfl rfl oneYet rfl (Nat.le_of_succ_le room)
  have pushes : context.step 2 (pushOf hash)
      (.after 2 ((CoinSpend.hash160 key).bytes :: key :: signature :: below)) =
        pure (.after 2 (hash :: (CoinSpend.hash160 key).bytes :: key :: signature :: below)) :=
    Context.step_of_pushed? (wellFormed_pushOf (by rw [sized]; decide)) rfl
      (isAllowed_pushOf (by rw [sized]; decide) (by rw [sized]; decide) _) rfl room
  have compares : context.step 3 (.op .equalVerify)
      (.after 2 (hash :: (CoinSpend.hash160 key).bytes :: key :: signature :: below)) = (do
        Outcome.require ((CoinSpend.hash160 key).bytes = hash) .equalVerify
        return .after 3 (key :: signature :: below)) :=
    Context.step_equalVerify rfl twoYet rfl twoFit
  have checks : context.step 4 (.op .checkSig) (.after 3 (key :: signature :: below)) = (do
      let accepted ← context.checkPair (context.signedScript (.ofStack []) [signature])
        signature key
      Outcome.require (accepted || !context.flags.has .nullFail || signature.isEmpty) .nullFail
      return .after 4 (ScriptNumber.ofBool accepted :: below)) :=
    Context.step_checkSig rfl threeYet rfl (Nat.le_of_succ_le twoFit)
  rw [payToKeyHashInstructions, Context.steps, duplicates, Outcome.pure_bind, Context.steps,
    hashes, Outcome.pure_bind, Context.steps, pushes, Outcome.pure_bind, Context.steps, compares,
    Outcome.bind_assoc, Context.unlockKeyHash, Outcome.bind_assoc]
  simp only [Outcome.pure_bind, Context.steps, checks, Outcome.bind_assoc]

/-- The hash of a key replaces a key and a signature by whether the signature holds. -/
theorem evaluate_payToKeyHash {flags : Flags} {checker : Checker} {version : SignatureVersion}
    (room : below.length + 4 ≤ Limits.maxStackSize) :
    Context.evaluate ⟨payToKeyHash hash, flags, checker, version⟩ (key :: signature :: below) =
      (do
        let accepted ← Context.unlockKeyHash ⟨payToKeyHash hash, flags, checker, version⟩ hash
          signature key
        return ScriptNumber.ofBool accepted :: below) := by
  have whole := brokenEnd_ofInstructions (wellFormed_payToKeyHashInstructions sized)
  have short : (payToKeyHash hash).length ≤ Limits.maxScriptSize := by
    rw [length_payToKeyHash sized]
    decide
  rw [Context.evaluate_of_whole short whole]
  dsimp only
  rw [instructions_payToKeyHash sized, steps_payToKeyHash sized room, Outcome.bind_assoc]
  simp only [Outcome.pure_bind]
  rfl

end KeyLock

end Script

end CoinSpend
